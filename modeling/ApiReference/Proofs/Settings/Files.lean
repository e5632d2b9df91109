import ApiReference.Proofs.Settings.Leaves
import ApiReference.Proofs.Settings.Merging

/-!
# A document as a layer

A document whose keys are the documented ones, laid over the defaults and read with conversions,
gives the settings that the document alone stands for. A date in place of a section is the one thing
that a layer reads otherwise. Main statement: `ofTable?_overlay_fileLayer`.
-/

namespace ApiReference.Settings
open ApiReference.Toml (Value Table Throughout)

/-- The names of sections, of settings and of what a framework has. -/
def documentedKeys : List Text :=
  ["parser", "cache_capacity", "fetch", "registry_url", "cdn_url", "timeout_secs",
   "max_cached_responses", "user_agent", "context", "default_max_examples", "max_response_chars",
   "related_type_max_chars", "similar_api_limit", "search", "default_frameworks", "default_limit",
   "frameworks", "key", "packages", "aliases", "api_patterns"].map String.toList

/-- Whether all keys in a value are documented. -/
def Documented (v : Value) : Prop := Throughout (fun keys => ∀ key ∈ keys, key ∈ documentedKeys) v

theorem lower_documented : ∀ key ∈ documentedKeys, Text.lower key = key := by decide +kernel

theorem pathOf_documented : ∀ key ∈ documentedKeys, pathOf key = [key] := by decide +kernel

theorem plain_of_documented {v : Value} (documented : Documented v)
    (distinct : Throughout List.Nodup v) : Throughout Plain v := by
  induction documented with
  | string t => exact .string t
  | integer n => exact .integer n
  | float x => exact .float x
  | boolean b => exact .boolean b
  | datetime d => exact .datetime d
  | array _ ih =>
      cases distinct with
      | array each => exact .array fun v member => ih v member (each v member)
  | table keys _ ih =>
      cases distinct with
      | table distinct each =>
          exact .table ⟨distinct, fun key member => lower_documented key (keys key member)⟩
            fun e member => ih e member (each e member)

theorem layered_ne_table {v : Value} (other : ∀ entries, v ≠ .table entries) :
    ∀ entries, layered v ≠ .table entries := by
  intro entries same
  cases v with
  | table => exact other _ rfl
  | _ => cases same

theorem mapM_map_of {α β γ : Type} {f : α → Option β} {g : γ → Option β} {h : α → γ} {xs : List α}
    (agree : ∀ x ∈ xs, ∀ y, f x = some y → g (h x) = some y) {ys : List β}
    (read : xs.mapM f = some ys) : (xs.map h).mapM g = some ys := by
  induction xs generalizing ys with
  | nil => exact read
  | cons x xs ih =>
      obtain ⟨now, later⟩ := List.forall_mem_cons.1 agree
      rw [List.mapM_cons] at read
      obtain ⟨y, first, read⟩ := Option.bind_eq_some_iff.1 read
      obtain ⟨ys, rest, made⟩ := Option.bind_eq_some_iff.1 read
      rw [List.map_cons, List.mapM_cons, now y first, ih later rest]
      exact made

theorem number?_layered {v : Value} {n : Nat} (read : Convention.strict.number? v = some n) :
    Convention.converting.number? (layered v) = some n := by
  cases v with
  | integer => exact read
  | _ => cases read

theorem text?_layered {v : Value} {t : Text} (read : Convention.strict.text? v = some t) :
    Convention.converting.text? (layered v) = some t := by
  cases v with
  | string => exact read
  | _ => cases read

theorem texts?_layered {v : Value} {ts : List Text} (read : Convention.strict.texts? v = some ts) :
    Convention.converting.texts? (layered v) = some ts := by
  cases v with
  | array items =>
      rw [layered, layeredItems_eq_map]
      exact mapM_map_of (fun _ _ _ => text?_layered) read
  | _ => cases read

/-- What a single setting can be read from, a layer has the same meaning for, and it is no table. -/
theorem read?_layered {k : Kind} {v : Value} {d : Datum} (read : k.read? .strict v = some d) :
    k.read? .converting (layered v) = some d ∧ ∀ entries, v ≠ .table entries := by
  refine ⟨?_, ?_⟩
  · cases k with
    | number =>
        obtain ⟨n, found, rfl⟩ := Option.map_eq_some_iff.1 read
        exact Option.map_eq_some_iff.2 ⟨n, number?_layered found, rfl⟩
    | text =>
        obtain ⟨t, found, rfl⟩ := Option.map_eq_some_iff.1 read
        exact Option.map_eq_some_iff.2 ⟨t, text?_layered found, rfl⟩
    | texts =>
        obtain ⟨ts, found, rfl⟩ := Option.map_eq_some_iff.1 read
        exact Option.map_eq_some_iff.2 ⟨ts, texts?_layered found, rfl⟩
  · rintro entries rfl
    cases k <;> cases read

/-- What has fields, but for dates, has the same fields in a layer. -/
theorem fields?_layered {v : Value} (plain : Throughout Plain v)
    {f : Nat → Text → Option Value} (found : Convention.strict.fields? v = some f)
    (undated : ∀ d, v ≠ .datetime d) :
    ∃ g, Convention.converting.fields? (layered v) = some g ∧
      ∀ i key, g i key = (f i key).map layered := by
  cases plain with
  | table plain =>
      cases found
      exact ⟨_, rfl, fun _ key => get?_fileLayer plain key⟩
  | array =>
      cases found
      rw [layered, layeredItems_eq_map]
      exact ⟨_, rfl, fun i _ => List.getElem?_map ..⟩
  | datetime d => exact absurd rfl (undated d)
  | string | integer | float | boolean => cases found

section
variable {f g : Nat → Text → Option Value} {i : Nat} {key : String} {α : Type}
  {read read' : Value → Option α}

theorem field_layered (same : ∀ i key, g i key = (f i key).map layered)
    (agree : ∀ v a, read v = some a → read' (layered v) = some a) {default a : α}
    (found : field f i key read default = some a) : field g i key read' default = some a := by
  unfold field at found ⊢
  rw [same]
  cases here : f i key.toList with
  | none =>
      rw [here] at found
      exact found
  | some v =>
      rw [here] at found
      exact agree v a found

theorem required_layered (same : ∀ i key, g i key = (f i key).map layered)
    (agree : ∀ v a, read v = some a → read' (layered v) = some a) {a : α}
    (found : required f i key read = some a) : required g i key read' = some a := by
  unfold required at found ⊢
  rw [same]
  obtain ⟨v, here, found⟩ := Option.bind_eq_some_iff.1 found
  rw [here, Option.map_some, Option.bind_some]
  exact agree v a found

end

theorem frameworkOf?_layered {v : Value} (plain : Throughout Plain v) {made : Framework}
    (found : frameworkOf? .strict v = some made) :
    frameworkOf? .converting (layered v) = some made := by
  obtain ⟨f, fields, found⟩ := Option.bind_eq_some_iff.1 found
  obtain ⟨key, named, found⟩ := Option.bind_eq_some_iff.1 found
  obtain ⟨packages, listed, found⟩ := Option.bind_eq_some_iff.1 found
  obtain ⟨aliases, called, found⟩ := Option.bind_eq_some_iff.1 found
  obtain ⟨patterns, known, found⟩ := Option.bind_eq_some_iff.1 found
  have undated : ∀ d, v ≠ .datetime d := by
    rintro d rfl
    cases fields
    cases named
  obtain ⟨g, fields, same⟩ := fields?_layered plain fields undated
  simp only [frameworkOf?, fields, required_layered same (fun _ _ => text?_layered) named,
    required_layered same (fun _ _ => texts?_layered) listed,
    field_layered same (fun _ _ => texts?_layered) called,
    field_layered same (fun _ _ => texts?_layered) known, Option.bind_eq_bind, Option.bind_some]
  exact found

theorem frameworksOf?_layered {v : Value} (plain : Throughout Plain v) {made : List Framework}
    (found : frameworksOf? .strict v = some made) :
    frameworksOf? .converting (layered v) = some made ∧ ∀ entries, v ≠ .table entries := by
  cases plain with
  | array each =>
      rw [layered, layeredItems_eq_map]
      exact ⟨mapM_map_of (fun v member _ => frameworkOf?_layered (each v member)) found, nofun⟩
  | _ => cases found

/-- The table that a layer is laid over. -/
def defaults : Table := overlay baseLayer []

theorem defaults_stand : ∀ l ∈ leaves, l.Stands .converting defaults {} := by decide +kernel

theorem exists_defaults_part {part : String} (named : part ∈ partNames) :
    ∃ base, Table.get? defaults part.toList = some (.table base) := by
  revert part
  simp only [partNames, List.forall_mem_cons]
  exact ⟨⟨_, rfl⟩, ⟨_, rfl⟩, ⟨_, rfl⟩, ⟨_, rfl⟩, List.forall_mem_nil _⟩

theorem defaults_frameworks : Table.get? defaults "frameworks".toList = none := by
  rw [← Option.isNone_iff_eq_none]
  decide +kernel

section
variable {t : Table}

/-- What a document has under a key, laid over the defaults. -/
theorem get?_fileLayer_defaults (documented : Documented (.table t))
    (plain : Plain (t.map Prod.fst)) (key : Text) :
    Table.get? (overlay (fileLayer t) defaults) key =
      match Table.get? t key with
      | some v => some (merge (Table.get? defaults key) (layered v))
      | none => Table.get? defaults key := by
  have single : ∀ e ∈ fileLayer t, pathOf e.1 = [e.1] := by
    intro e member
    cases documented with
    | table keys =>
        refine pathOf_documented e.1 (keys e.1 ?_)
        rw [← keys_layeredEntries]
        exact ((perm_fileLayer plain).map Prod.fst).mem_iff.1 (List.mem_map_of_mem member)
  rw [get?_overlay single (nodup_fileLayer plain), get?_fileLayer plain]
  cases Table.get? t key <;> rfl

/-- The fields that come of fields laid over others: a value is in place of what was there, and
where there is none, the field is the one below or none. -/
structure Covers (f base g : Nat → Text → Option Value) : Prop where
  found {i : Nat} {key : Text} {v : Value} (here : f i key = some v)
    (other : ∀ entries, v ≠ .table entries) : g i key = some (layered v)
  missing {i : Nat} {key : Text} (nothing : f i key = none) :
    g i key = none ∨ g i key = base i key

section
variable {u : Table} {part : String} {base : Table}

/-- Where a document has no such section, that of the defaults stays. -/
theorem covers_missing (found : Table.get? t part.toList = none)
    (there : Table.get? defaults part.toList = some (.table base))
    (laid : Table.get? u part.toList = some (.table base)) :
    Readable .converting u part ∧
      Covers (fieldsAt .strict t part) (fieldsAt .converting defaults part)
        (fieldsAt .converting u part) := by
  unfold fieldsAt Readable
  rw [found, laid, there]
  refine ⟨?_, nofun, fun _ => .inr rfl⟩
  rintro _ ⟨⟩
  exact ⟨_, rfl⟩

/-- A list of values is in place of the whole section. -/
theorem covers_array {items : List Value} {f : Nat → Text → Option Value}
    (plain : Throughout Plain (.array items)) (found : Table.get? t part.toList = some (.array items))
    (fields : Convention.strict.fields? (.array items) = some f)
    (laid : Table.get? u part.toList = some (layered (.array items))) :
    Readable .converting u part ∧
      Covers (fieldsAt .strict t part) (fieldsAt .converting defaults part)
        (fieldsAt .converting u part) := by
  obtain ⟨g, fields', same⟩ := fields?_layered plain fields nofun
  unfold fieldsAt Readable
  rw [found, laid, Option.bind_some, Option.bind_some, fields, fields']
  refine ⟨?_, fun here _ => ?_, fun nothing => .inl ?_⟩
  · rintro _ ⟨⟩
    exact ⟨g, fields'⟩
  · exact (same _ _).trans (congrArg (Option.map layered) here)
  · exact (same _ _).trans (congrArg (Option.map layered) nothing)

/-- The entries of a section are laid over those of the defaults one by one. -/
theorem covers_table {entries merged : Table} (plain : Plain (entries.map Prod.fst))
    (found : Table.get? t part.toList = some (.table entries))
    (there : Table.get? defaults part.toList = some (.table base))
    (laid : Table.get? u part.toList = some (.table merged))
    (look : ∀ key, Table.get? merged key = match Table.get? (fileLayer entries) key with
      | some v => some (merge (Table.get? base key) v)
      | none => Table.get? base key) :
    Readable .converting u part ∧
      Covers (fieldsAt .strict t part) (fieldsAt .converting defaults part)
        (fieldsAt .converting u part) := by
  unfold fieldsAt Readable
  rw [found, laid, there]
  refine ⟨?_, fun {i key v} here other => ?_, fun {i key} nothing => .inr ?_⟩
  · rintro _ ⟨⟩
    exact ⟨_, rfl⟩
  · change Table.get? merged key = some (layered v)
    have here : Table.get? entries key = some v := here
    rw [look, get?_fileLayer plain, here]
    exact congrArg some (merge_of_not_table (layered_ne_table other) _)
  · change Table.get? merged key = Table.get? base key
    have nothing : Table.get? entries key = none := nothing
    rw [look, get?_fileLayer plain, nothing]
    rfl

end

/-- A section of a document covers that section of the defaults. -/
theorem covers_part {part : String} (named : part ∈ partNames)
    (documented : Documented (.table t)) (plain : Throughout Plain (.table t))
    (readable : Readable .strict t part)
    (undated : ∀ d, Table.get? t part.toList ≠ some (.datetime d)) :
    Readable .converting (overlay (fileLayer t) defaults) part ∧
      Covers (fieldsAt .strict t part) (fieldsAt .converting defaults part)
        (fieldsAt .converting (overlay (fileLayer t) defaults) part) := by
  obtain ⟨base, there⟩ := exists_defaults_part named
  cases plain with
  | table keys each =>
      have laid := get?_fileLayer_defaults documented keys part.toList
      cases found : Table.get? t part.toList with
      | none =>
          rw [found, there] at laid
          exact covers_missing found there laid
      | some v =>
          rw [found, there] at laid
          have inside : Throughout Plain v := each _ (mem_of_get? found)
          obtain ⟨f, fields⟩ := readable v found
          cases v with
          | array items =>
              have other : ∀ entries, Value.array items ≠ .table entries := nofun
              simp only [merge_of_not_table (layered_ne_table other)] at laid
              exact covers_array inside found fields laid
          | table entries =>
              cases inside with
              | table plain =>
                  obtain ⟨merged, made, look⟩ := merge_table (nodup_fileLayer plain) base
                  change _ = some (merge _ (.table (fileLayer entries))) at laid
                  rw [made] at laid
                  exact covers_table plain found there laid look
          | datetime d => exact absurd found (undated d)
          | string | integer | float | boolean => cases fields

end

theorem Covers.stands {t u : Table} {l : Leaf} {s : Settings} (member : l ∈ leaves)
    (covers : Covers (fieldsAt .strict t l.part) (fieldsAt .converting defaults l.part)
      (fieldsAt .converting u l.part)) (stands : l.Stands .strict t s) :
    l.Stands .converting u s := by
  have usual := defaults_stand l member
  unfold Leaf.Stands field at stands usual ⊢
  cases here : fieldsAt .strict t l.part l.place l.name.toList with
  | some v =>
      rw [here] at stands
      obtain ⟨read, other⟩ := read?_layered stands
      rw [covers.found here other]
      exact read
  | none =>
      rw [here] at stands
      rw [← stands]
      obtain nothing | below := covers.missing here
      · rw [nothing]
      · rw [below]
        exact usual

/-- A document of documented keys, laid over the defaults, stands for the same settings. -/
theorem ofTable?_overlay_fileLayer {t : Table} (documented : Documented (.table t))
    (distinct : Throughout List.Nodup (.table t))
    (undated : ∀ part ∈ partNames, ∀ d, Table.get? t part.toList ≠ some (.datetime d))
    {s : Settings} (made : ofTable? .strict t = some s) :
    ofTable? .converting (overlay (fileLayer t) defaults) = some s := by
  obtain ⟨readable, stands, frameworks⟩ := ofTable?_eq_some_iff.1 made
  have plain := plain_of_documented documented distinct
  have covered (part : String) (named : part ∈ partNames) :=
    covers_part named documented plain (readable part named) (undated part named)
  refine ofTable?_eq_some_iff.2 ⟨fun part named => (covered part named).1, ?_, ?_⟩
  · intro l member
    exact (covered l.part (part_mem l member)).2.stands member (stands l member)
  · cases plain with
    | table keys each =>
        have laid := get?_fileLayer_defaults documented keys "frameworks".toList
        rw [frameworksAt?, field] at frameworks ⊢
        rw [laid, defaults_frameworks]
        cases found : Table.get? t "frameworks".toList with
        | none =>
            rw [found] at frameworks
            exact frameworks
        | some v =>
            rw [found] at frameworks
            obtain ⟨read, other⟩ := frameworksOf?_layered (each _ (mem_of_get? found)) frameworks
            exact (congrArg _ (merge_of_not_table (layered_ne_table other) _)).trans read

end ApiReference.Settings
