import ApiReference.Proofs.Toml.Tables

/-!
# What holds of all that is read

A property that strings and words have, and that arrays and tables have from what is in them, is a
property of every document that is read. On the way the keys of each table are seen to be distinct.
Main statements: `IsInherited.read?`,
`distinct_read?`.
-/

namespace ApiReference.Toml

/-- A property that a value has from its parts. The tables in question have distinct keys. -/
structure IsInherited (P : Value → Prop) : Prop where
  string (t : Text) : P (.string t)
  word {t rest : Text} {v : Value} (found : readWord t = some (v, rest)) : P v
  array {items : List Value} (each : ∀ v ∈ items, P v) : P (.array items)
  table {entries : Table} (distinct : (entries.map Prod.fst).Nodup)
    (each : ∀ e ∈ entries, P e.2) : P (.table entries)

theorem word?_cases {t : Text} {v : Value} (found : word? t = some v) :
    (∃ b, v = .boolean b) ∨ (∃ n, integer? t = some n ∧ v = .integer n) ∨
      (∃ x, v = .float x) ∨ ∃ d, v = .datetime d := by
  rw [word?] at found
  split at found
  · exact .inl ⟨true, (Option.some.inj found).symm⟩
  · split at found
    · exact .inl ⟨false, (Option.some.inj found).symm⟩
    · cases number : integer? t with
      | some n =>
          rw [number] at found
          exact .inr (.inl ⟨n, rfl, (Option.some.inj found).symm⟩)
      | none =>
          cases decimal : float? t with
          | some x =>
              rw [number, decimal] at found
              exact .inr (.inr (.inl ⟨x, (Option.some.inj found).symm⟩))
          | none =>
              rw [number, decimal] at found
              obtain ⟨d, -, rfl⟩ := Option.map_eq_some_iff.1 found
              exact .inr (.inr (.inr ⟨d, rfl⟩))

theorem readWord_cases {t rest : Text} {v : Value} (found : readWord t = some (v, rest)) :
    (∃ b, v = .boolean b) ∨ (∃ word n, integer? word = some n ∧ v = .integer n) ∨
      (∃ x, v = .float x) ∨ ∃ d, v = .datetime d := by
  rw [readWord] at found
  split at found
  · split at found
    · obtain ⟨moment, -, same⟩ := Option.map_eq_some_iff.1 found
      cases same
      exact .inr (.inr (.inr ⟨moment, rfl⟩))
    · cases found
      exact .inr (.inr (.inr ⟨_, rfl⟩))
  · next word _ =>
      cases found
      obtain truth | ⟨n, number, whole⟩ | decimal := word?_cases word
      · exact .inl truth
      · exact .inr (.inl ⟨_, n, number, whole⟩)
      · exact .inr (.inr decimal)
  · cases found

section
variable {P : Value → Prop} {item : Text → Option (Value × Text)}

theorem each_readItems (each : ∀ t v rest, item t = some (v, rest) → P v) {n : Nat}
    {t rest : Text} {vs : List Value} (found : readItems item n t = some (vs, rest)) :
    ∀ v ∈ vs, P v := by
  induction n generalizing t rest vs with
  | zero => cases found
  | succ n ih =>
      rw [readItems.eq_def] at found
      simp only at found
      split at found
      · cases found
        exact List.forall_mem_nil _
      · obtain ⟨⟨v, after⟩, read, found⟩ := Option.bind_eq_some_iff.1 found
        have first := each _ v after read
        split at found
        · cases found
          exact List.forall_mem_singleton.2 first
        · obtain ⟨⟨more, last⟩, others, found⟩ := Option.bind_eq_some_iff.1 found
          cases found
          exact List.forall_mem_cons.2 ⟨first, ih others⟩
        · cases found

theorem each_readPair (each : ∀ t v rest, item t = some (v, rest) → P v)
    {t rest : Text} {pair : Place × Value} (found : readPair item t = some (pair, rest)) :
    P pair.2 := by
  rw [readPair] at found
  obtain ⟨⟨place, after⟩, -, found⟩ := Option.bind_eq_some_iff.1 found
  simp only at found
  split at found
  · obtain ⟨⟨v, last⟩, read, found⟩ := Option.bind_eq_some_iff.1 found
    cases found
    exact each _ v _ read
  · cases found

theorem each_readPairs (each : ∀ t v rest, item t = some (v, rest) → P v) {n : Nat}
    {t rest : Text} {pairs : List (Place × Value)}
    (found : readPairs item n t = some (pairs, rest)) : ∀ pair ∈ pairs, P pair.2 := by
  induction n generalizing t rest pairs with
  | zero => exact nomatch found
  | succ n ih =>
      rw [readPairs] at found
      obtain ⟨⟨pair, after⟩, read, found⟩ := Option.bind_eq_some_iff.1 found
      have first := each_readPair each read
      simp only at found
      split at found
      · cases found
        exact List.forall_mem_singleton.2 first
      · obtain ⟨⟨more, last⟩, others, found⟩ := Option.bind_eq_some_iff.1 found
        cases found
        exact List.forall_mem_cons.2 ⟨first, ih others⟩
      · exact nomatch found

end

/-- A property of all values in a node, whose tables have distinct keys. -/
inductive Node.Has (P : Value → Prop) : Node → Prop where
  | value {v : Value} (h : P v) : Has P (.value v)
  | table (origin : Origin) {entries : Entries} (distinct : (entries.map Prod.fst).Nodup)
      (each : ∀ e ∈ entries, Has P e.2) : Has P (.table origin entries)
  | tables {items : List Entries} (distinct : ∀ item ∈ items, (item.map Prod.fst).Nodup)
      (each : ∀ item ∈ items, ∀ e ∈ item, Has P e.2) : Has P (.tables items)

/-- A property of all values in entries with distinct keys. -/
structure Sound (P : Value → Prop) (entries : Entries) : Prop where
  distinct : (entries.map Prod.fst).Nodup
  each : ∀ e ∈ entries, e.2.Has P

/-- What stands under a key is changed, or something new is put at the end. -/
theorem adjust_eq_some {key : Text} {change : Option Node → Option Node} {entries result : Entries}
    (found : adjust key change entries = some result) :
    (∃ before old after new, entries = before ++ (key, old) :: after ∧
      change (some old) = some new ∧ result = before ++ (key, new) :: after) ∨
    (Lacks entries key ∧ ∃ new, change none = some new ∧ result = entries ++ [(key, new)]) := by
  induction entries generalizing result with
  | nil =>
      obtain ⟨new, changed, rfl⟩ := Option.map_eq_some_iff.1 found
      exact .inr ⟨List.forall_mem_nil _, new, changed, rfl⟩
  | cons e entries ih =>
      rw [adjust] at found
      split at found
      · next same =>
          obtain ⟨new, changed, rfl⟩ := Option.map_eq_some_iff.1 found
          exact .inl ⟨[], e.2, entries, new, by rw [← same]; rfl, changed, by rw [← same]; rfl⟩
      · next differ =>
          obtain ⟨others, changed, rfl⟩ := Option.map_eq_some_iff.1 found
          obtain ⟨before, old, after, new, rfl, here, rfl⟩ | ⟨lacks, new, added, rfl⟩ := ih changed
          · exact .inl ⟨e :: before, old, after, new, rfl, here, rfl⟩
          · exact .inr ⟨List.forall_mem_cons.2 ⟨differ, lacks⟩, new, added, rfl⟩

/-- What holds of each item of a list holds of each with another last item, if it holds of that. -/
theorem forall_mem_replaceLast {α : Type} {Q : α → Prop} {items : List α} {last : α}
    (each : ∀ item ∈ items, Q item) (holds : Q last) : ∀ item ∈ items.dropLast ++ [last], Q item :=
  List.forall_mem_append.2 ⟨fun item member => each item (List.mem_of_mem_dropLast member),
    List.forall_mem_singleton.2 holds⟩

namespace Sound
variable {P : Value → Prop} {entries result : Entries} {key : Text} {path : List Text}

theorem nil : Sound P [] := ⟨List.nodup_nil, List.forall_mem_nil _⟩

theorem adjust {change : Option Node → Option Node}
    (keeps : ∀ old new, (∀ node ∈ old, Node.Has P node) → change old = some new → new.Has P)
    (sound : Sound P entries) (found : adjust key change entries = some result) :
    Sound P result := by
  obtain ⟨before, old, after, new, rfl, changed, rfl⟩ | ⟨lacks, new, changed, rfl⟩ :=
    adjust_eq_some found
  · obtain ⟨first, rest⟩ := List.forall_mem_append.1 sound.each
    obtain ⟨here, rest⟩ := List.forall_mem_cons.1 rest
    have kept : new.Has P := keeps (some old) new (by rintro _ ⟨⟩; exact here) changed
    refine ⟨?_, List.forall_mem_append.2 ⟨first, List.forall_mem_cons.2 ⟨kept, rest⟩⟩⟩
    simpa only [List.map_append, List.map_cons] using sound.distinct
  · have kept : new.Has P := keeps none new nofun changed
    refine ⟨?_, List.forall_mem_append.2 ⟨sound.each, List.forall_mem_singleton.2 kept⟩⟩
    rw [List.map_append, List.map_singleton, List.nodup_append]
    refine ⟨sound.distinct, List.pairwise_singleton _ _, fun k old k' new same => ?_⟩
    obtain ⟨e, member, rfl⟩ := List.mem_map.1 old
    exact lacks e member (same.trans (List.mem_singleton.1 new))

theorem within {dotted : Bool} {change : Origin → Entries → Option Entries}
    (keeps : ∀ origin old new, Sound P old → change origin old = some new → Sound P new)
    {origin : Origin} (sound : Sound P entries)
    (found : within dotted change path origin entries = some result) : Sound P result := by
  induction path generalizing origin entries result with
  | nil => exact keeps origin entries result sound found
  | cons key path ih =>
      rw [Toml.within] at found
      refine sound.adjust (fun old new kept changed => ?_) found
      cases old with
      | none =>
          obtain ⟨inner, made, rfl⟩ := Option.map_eq_some_iff.1 changed
          have inner := ih nil made
          exact .table _ inner.distinct inner.each
      | some node =>
          cases kept _ rfl with
          | value => cases changed
          | table origin distinct each =>
              simp only at changed
              split at changed
              · cases changed
              · obtain ⟨inner, made, rfl⟩ := Option.map_eq_some_iff.1 changed
                have inner := ih ⟨distinct, each⟩ made
                exact .table origin inner.distinct inner.each
          | tables distinct each =>
              simp only at changed
              split at changed
              · cases changed
              · next last found =>
                  obtain ⟨inner, made, rfl⟩ := Option.map_eq_some_iff.1 changed
                  have member := List.mem_of_getLast? found
                  have inner := ih ⟨distinct last member, each last member⟩ made
                  exact .tables (forall_mem_replaceLast distinct inner.distinct)
                    (forall_mem_replaceLast each inner.each)

theorem assign {v : Value} (h : P v) {origin : Origin} (sound : Sound P entries)
    (found : assign path key v origin entries = some result) : Sound P result := by
  refine sound.within (fun origin old new sound changed => ?_) found
  split at changed
  · exact nomatch changed
  · refine sound.adjust (fun old new _ put => ?_) changed
    split at put
    · cases put
      exact .value h
    · exact nomatch put

theorem openTable (sound : Sound P entries) (found : openTable path key entries = some result) :
    Sound P result := by
  refine sound.within (fun _ old new sound changed => ?_) found
  refine sound.adjust (fun old new kept opened => ?_) changed
  split at opened
  · cases opened
    exact .table _ List.nodup_nil nofun
  · cases opened
    cases kept _ rfl with
    | table _ distinct each => exact .table _ distinct each
  · exact nomatch opened

theorem openItem (sound : Sound P entries) (found : openItem path key entries = some result) :
    Sound P result := by
  refine sound.within (fun _ old new sound changed => ?_) found
  refine sound.adjust (fun old new kept opened => ?_) changed
  have apart : ∀ item ∈ [([] : Entries)], (item.map Prod.fst).Nodup :=
    List.forall_mem_singleton.2 List.nodup_nil
  have empty : ∀ item ∈ [([] : Entries)], ∀ e ∈ item, e.2.Has P :=
    List.forall_mem_singleton.2 nofun
  split at opened
  · cases opened
    exact .tables apart empty
  · cases opened
    cases kept _ rfl with
    | tables distinct each =>
        exact .tables (List.forall_mem_append.2 ⟨distinct, apart⟩)
          (List.forall_mem_append.2 ⟨each, empty⟩)
  · exact nomatch opened

theorem foldlM_assign {pairs : List (Place × Value)} (each : ∀ pair ∈ pairs, P pair.2)
    (sound : Sound P entries)
    (built : pairs.foldlM
      (fun entries (place, v) => Toml.assign place.path place.key v .header entries)
      entries = some result) : Sound P result := by
  induction pairs generalizing entries with
  | nil =>
      obtain rfl := Option.some.inj built
      exact sound
  | cons pair pairs ih =>
      obtain ⟨first, rest⟩ := List.forall_mem_cons.1 each
      rw [List.foldlM_cons] at built
      obtain ⟨next, assigned, built⟩ := Option.bind_eq_some_iff.1 built
      exact ih rest (sound.assign first assigned) built

theorem keys_tableOf (sound : Sound P entries) : ((tableOf entries).map Prod.fst).Nodup := by
  rw [tableOf_eq_map, List.map_map]
  exact sound.distinct

end Sound

def Statement.Has (P : Value → Prop) : Statement → Prop
  | .pair _ v => P v
  | _ => True

theorem sound_step {P : Value → Prop} {p next : Progress} {statement : Statement}
    (sound : Sound P p.root) (h : statement.Has P) (stepped : p.step statement = some next) :
    Sound P next.root := by
  cases statement with
  | table place =>
      obtain ⟨root, opened, rfl⟩ := Option.map_eq_some_iff.1 stepped
      exact sound.openTable opened
  | item place =>
      obtain ⟨root, opened, rfl⟩ := Option.map_eq_some_iff.1 stepped
      exact sound.openItem opened
  | pair place v =>
      obtain ⟨root, added, rfl⟩ := Option.map_eq_some_iff.1 stepped
      exact sound.within (fun _ _ _ sound changed => sound.assign h changed) added

theorem sound_foldlM {P : Value → Prop} {statements : List Statement}
    (each : ∀ s ∈ statements, s.Has P) {p last : Progress} (sound : Sound P p.root)
    (folded : statements.foldlM Progress.step p = some last) : Sound P last.root := by
  induction statements generalizing p with
  | nil =>
      obtain rfl := Option.some.inj folded
      exact sound
  | cons statement statements ih =>
      obtain ⟨first, rest⟩ := List.forall_mem_cons.1 each
      rw [List.foldlM_cons] at folded
      obtain ⟨next, stepped, folded⟩ := Option.bind_eq_some_iff.1 folded
      exact ih rest (sound_step sound first stepped) folded

namespace IsInherited
variable {P : Value → Prop} (h : IsInherited P)
include h

theorem toValue {node : Node} (has : node.Has P) : P node.toValue := by
  induction has with
  | value has => exact has
  | table origin distinct each ih =>
      rw [Node.toValue]
      refine h.table (Sound.keys_tableOf ⟨distinct, each⟩) ?_
      rw [tableOf_eq_map]
      exact List.forall_mem_map.2 ih
  | tables distinct each ih =>
      rw [Node.toValue, tablesOf_eq_map]
      refine h.array (List.forall_mem_map.2 fun entries member => ?_)
      refine h.table (Sound.keys_tableOf ⟨distinct entries member, each entries member⟩) ?_
      rw [tableOf_eq_map]
      exact List.forall_mem_map.2 (ih entries member)

theorem tableOf {entries : Entries} (sound : Sound P entries) : ∀ e ∈ tableOf entries, P e.2 := by
  rw [tableOf_eq_map]
  exact List.forall_mem_map.2 fun e member => h.toValue (sound.each e member)

theorem inlineTable? {pairs : List (Place × Value)} (each : ∀ pair ∈ pairs, P pair.2) {v : Value}
    (found : inlineTable? pairs = some v) : P v := by
  obtain ⟨entries, built, made⟩ := Option.bind_eq_some_iff.1 found
  obtain rfl := Option.some.inj made
  have sound := Sound.nil.foldlM_assign each built
  exact h.table sound.keys_tableOf (h.tableOf sound)

theorem readValue {depth : Nat} {t rest : Text} {v : Value}
    (found : readValue depth t = some (v, rest)) : P v := by
  induction depth using Nat.strongRecOn generalizing t rest v with
  | ind depth ih =>
      rw [readValue.eq_def] at found
      split at found
      · exact nomatch found
      · split at found
        · obtain ⟨⟨s, after⟩, -, made⟩ := Option.map_eq_some_iff.1 found
          cases made
          exact h.string s
        · split at found
          · next depth _ =>
              obtain ⟨⟨vs, after⟩, items, made⟩ := Option.map_eq_some_iff.1 found
              cases made
              exact h.array (each_readItems (fun t v rest => ih depth (Nat.lt_succ_self _)) items)
          · next depth _ =>
              split at found
              · cases found
                exact h.table List.nodup_nil (List.forall_mem_nil _)
              · obtain ⟨⟨pairs, after⟩, read, found⟩ := Option.bind_eq_some_iff.1 found
                obtain ⟨w, built, made⟩ := Option.bind_eq_some_iff.1 found
                cases made
                exact h.inlineTable?
                  (each_readPairs (fun t v rest => ih depth (Nat.lt_succ_self _)) read) built
          · exact h.word found

theorem readStatement {t rest : Text} {statement : Statement}
    (found : readStatement t = some (statement, rest)) : statement.Has P := by
  rw [readStatement.eq_def] at found
  split at found
  · obtain ⟨⟨place, after⟩, -, made⟩ := Option.bind_eq_some_iff.1 found
    simp only at made
    split at made
    · cases made
      trivial
    · cases made
  · obtain ⟨⟨place, after⟩, -, made⟩ := Option.bind_eq_some_iff.1 found
    simp only at made
    split at made
    · cases made
      trivial
    · cases made
  · obtain ⟨⟨⟨place, v⟩, after⟩, read, made⟩ := Option.map_eq_some_iff.1 found
    cases made
    exact each_readPair (fun t v rest => h.readValue) read

theorem readStatements {n : Nat} {t : Text} {statements : List Statement}
    (found : readStatements n t = some statements) : ∀ s ∈ statements, s.Has P := by
  induction n generalizing t statements with
  | zero => exact nomatch found
  | succ n ih =>
      rw [readStatements.eq_def] at found
      simp only at found
      split at found
      · cases found
        exact List.forall_mem_nil _
      · obtain ⟨⟨first, after⟩, read, found⟩ := Option.bind_eq_some_iff.1 found
        obtain ⟨next, -, found⟩ := Option.bind_eq_some_iff.1 found
        obtain ⟨others, more, made⟩ := Option.bind_eq_some_iff.1 found
        cases made
        exact List.forall_mem_cons.2 ⟨h.readStatement read, ih more⟩

/-- Whatever is read has the property. -/
theorem read? {t : Text} {table : Table} (found : read? t = some table) : P (.table table) := by
  obtain ⟨statements, read, found⟩ := Option.bind_eq_some_iff.1 found
  obtain ⟨last, folded, made⟩ := Option.bind_eq_some_iff.1 found
  obtain rfl := Option.some.inj made
  have sound := sound_foldlM (h.readStatements read) Sound.nil folded
  exact h.table sound.keys_tableOf (h.tableOf sound)

end IsInherited

/-- A property of the keys of each table within a value. -/
inductive Throughout (P : List Text → Prop) : Value → Prop where
  | string (t : Text) : Throughout P (.string t)
  | integer (n : Int) : Throughout P (.integer n)
  | float (x : Number.Binary64) : Throughout P (.float x)
  | boolean (b : Bool) : Throughout P (.boolean b)
  | datetime (d : Datetime) : Throughout P (.datetime d)
  | array {items : List Value} (each : ∀ v ∈ items, Throughout P v) : Throughout P (.array items)
  | table {entries : Table} (keys : P (entries.map Prod.fst))
      (each : ∀ e ∈ entries, Throughout P e.2) : Throughout P (.table entries)

/-- The keys of each table that is read are distinct. -/
theorem distinct_read? {t : Text} {table : Table} (found : read? t = some table) :
    Throughout List.Nodup (.table table) := by
  refine IsInherited.read? ⟨.string, fun found => ?_, .array, .table⟩ found
  obtain ⟨b, rfl⟩ | ⟨_, n, -, rfl⟩ | ⟨x, rfl⟩ | ⟨d, rfl⟩ := readWord_cases found
  · exact .boolean b
  · exact .integer n
  · exact .float x
  · exact .datetime d

end ApiReference.Toml
