import ApiReference.Proofs.Toml.Faithful
import ApiReference.Settings.Document

/-!
# Settings printed and read back

Settings that were read can be printed, and what is printed is read as the same settings, whatever
reader and writer of documents are used, as long as they are faithful. Main statements:
`accepted_write`, `ofText_toText`.
-/

namespace ApiReference.Settings
open ApiReference.Toml (Value Table Part Fits InRange IsWritable depthLimit)

section
variable {v : Value} {f : Nat → Text → Option Value}

theorem fits_number? (h : InRange v) {n : Nat} (found : Convention.strict.number? v = some n) :
    Fits n := by
  cases h with
  | integer fits =>
      simp only [Convention.strict] at found
      split at found
      · exact nomatch found
      · next natural =>
          obtain rfl := Option.some.inj found
          rwa [Int.toNat_of_nonneg (Int.not_lt.1 natural)]
  | string | float | boolean | datetime | array | table => exact nomatch found

/-- Whether the integers of all fields have 64 bits. -/
def FieldsInRange (f : Nat → Text → Option Value) : Prop :=
  ∀ i key w, f i key = some w → InRange w

theorem inRange_get? {t : Table} (each : ∀ e ∈ t, InRange e.2) {key : Text} {w : Value}
    (found : Table.get? t key = some w) : InRange w := by
  obtain ⟨e, first, rfl⟩ := Option.map_eq_some_iff.1 found
  exact each e (List.mem_of_find?_eq_some first)

theorem fieldsInRange (h : InRange v) (found : Convention.strict.fields? v = some f) :
    FieldsInRange f := by
  intro i key w here
  cases h with
  | table each =>
      cases found
      exact inRange_get? each here
  | array each =>
      cases found
      exact each w (List.mem_of_getElem? here)
  | datetime =>
      cases found
      exact nomatch here
  | string | integer | float | boolean => exact nomatch found

/-- What holds of a default and of all that is converted holds of a field. -/
theorem field_of {α : Type} {P : α → Prop} {i : Nat} {key : String} {convert : Value → Option α}
    {default a : α} (each : FieldsInRange f) (found : field f i key convert default = some a)
    (other : P default) (converted : ∀ w, InRange w → ∀ a, convert w = some a → P a) : P a := by
  rw [field] at found
  split at found
  · next w here => exact converted w (each i _ w here) a found
  · obtain rfl := Option.some.inj found
    exact other

theorem field_number_fits {i : Nat} {key : String} {default n : Nat} (each : FieldsInRange f)
    (found : field f i key Convention.strict.number? default = some n) (other : Fits default) :
    Fits n :=
  field_of (P := fun n : Nat => Fits n) each found other fun _ h _ => fits_number? h

theorem fits_parserOf? (h : InRange v) {p : ParserSettings}
    (found : parserOf? .strict v = some p) : Fits p.cacheCapacity := by
  obtain ⟨f, fields, found⟩ := Option.bind_eq_some_iff.1 found
  obtain ⟨n, capacity, made⟩ := Option.bind_eq_some_iff.1 found
  cases made
  exact field_number_fits (fieldsInRange h fields) capacity (by decide)

theorem fits_fetchOf? (h : InRange v) {s : FetchSettings} (found : fetchOf? .strict v = some s) :
    Fits s.timeoutSeconds ∧ Fits s.maxCachedResponses := by
  obtain ⟨f, fields, found⟩ := Option.bind_eq_some_iff.1 found
  obtain ⟨_, -, found⟩ := Option.bind_eq_some_iff.1 found
  obtain ⟨_, -, found⟩ := Option.bind_eq_some_iff.1 found
  obtain ⟨_, timeout, found⟩ := Option.bind_eq_some_iff.1 found
  obtain ⟨_, responses, found⟩ := Option.bind_eq_some_iff.1 found
  obtain ⟨_, -, made⟩ := Option.bind_eq_some_iff.1 found
  cases made
  have each := fieldsInRange h fields
  exact ⟨field_number_fits each timeout (by decide), field_number_fits each responses (by decide)⟩

theorem fits_contextOf? (h : InRange v) {s : ContextSettings}
    (found : contextOf? .strict v = some s) :
    Fits s.defaultMaxExamples ∧ Fits s.maxResponseChars ∧ Fits s.relatedTypeMaxChars ∧
      Fits s.similarApiLimit := by
  obtain ⟨f, fields, found⟩ := Option.bind_eq_some_iff.1 found
  obtain ⟨_, examples, found⟩ := Option.bind_eq_some_iff.1 found
  obtain ⟨_, response, found⟩ := Option.bind_eq_some_iff.1 found
  obtain ⟨_, related, found⟩ := Option.bind_eq_some_iff.1 found
  obtain ⟨_, similar, made⟩ := Option.bind_eq_some_iff.1 found
  cases made
  have each := fieldsInRange h fields
  exact ⟨field_number_fits each examples (by decide), field_number_fits each response (by decide),
    field_number_fits each related (by decide), field_number_fits each similar (by decide)⟩

theorem fits_searchOf? (h : InRange v) {s : SearchSettings}
    (found : searchOf? .strict v = some s) : Fits s.defaultLimit := by
  obtain ⟨f, fields, found⟩ := Option.bind_eq_some_iff.1 found
  obtain ⟨_, -, found⟩ := Option.bind_eq_some_iff.1 found
  obtain ⟨_, limit, made⟩ := Option.bind_eq_some_iff.1 found
  cases made
  exact field_number_fits (fieldsInRange h fields) limit (by decide)

end

/-- Whether all numbers can be written. -/
def Printable (s : Settings) : Prop := ∀ n ∈ s.numbers, Fits n

theorem printable_ofTable? {t : Table} (each : ∀ e ∈ t, InRange e.2) {s : Settings}
    (found : ofTable? .strict t = some s) : s.Printable := by
  obtain ⟨_, parser, found⟩ := Option.bind_eq_some_iff.1 found
  obtain ⟨_, fetch, found⟩ := Option.bind_eq_some_iff.1 found
  obtain ⟨_, context, found⟩ := Option.bind_eq_some_iff.1 found
  obtain ⟨_, search, found⟩ := Option.bind_eq_some_iff.1 found
  obtain ⟨_, -, made⟩ := Option.bind_eq_some_iff.1 found
  cases made
  have each : FieldsInRange fun _ key => Table.get? t key := fun _ _ _ => inRange_get? each
  have parser := field_of each parser (by decide) fun _ h _ => fits_parserOf? h
  have fetch := field_of each fetch (by decide) fun _ h _ => fits_fetchOf? h
  have context := field_of each context (by decide) fun _ h _ => fits_contextOf? h
  have search := field_of each search (by decide) fun _ h _ => fits_searchOf? h
  simp only [Printable, numbers, List.forall_mem_cons]
  exact ⟨parser, fetch.1, fetch.2, context.1, context.2.1, context.2.2.1, context.2.2.2, search,
    List.forall_mem_nil _⟩

theorem toText_eq {s : Settings} (h : s.Printable) : s.toText = .ok (Toml.write s.parts) := by
  have small : s.numbers.all (· < Nat.pow 2 63) = true := by
    refine List.all_eq_true.2 fun n member => decide_eq_true ?_
    exact Int.ofNat_lt.1 (h n member).2
  rw [toText, if_pos small]

def parserSection (p : ParserSettings) : Table := [pair "cache_capacity" (number p.cacheCapacity)]

def fetchSection (f : FetchSettings) : Table :=
  [pair "registry_url" (.string f.registryUrl), pair "cdn_url" (.string f.cdnUrl),
   pair "timeout_secs" (number f.timeoutSeconds),
   pair "max_cached_responses" (number f.maxCachedResponses),
   pair "user_agent" (.string f.userAgent)]

def contextSection (c : ContextSettings) : Table :=
  [pair "default_max_examples" (number c.defaultMaxExamples),
   pair "max_response_chars" (number c.maxResponseChars),
   pair "related_type_max_chars" (number c.relatedTypeMaxChars),
   pair "similar_api_limit" (number c.similarApiLimit)]

def searchSection (s : SearchSettings) : Table :=
  [pair "default_frameworks" (texts s.defaultFrameworks),
   pair "default_limit" (number s.defaultLimit)]

def sections (s : Settings) : List (Text × Table) :=
  [("parser".toList, parserSection s.parser), ("fetch".toList, fetchSection s.fetch),
   ("context".toList, contextSection s.context), ("search".toList, searchSection s.search)]

def row (f : Framework) : Table :=
  [pair "key" (.string f.key), pair "packages" (texts f.packages),
   pair "aliases" (texts f.aliases), pair "api_patterns" (texts f.apiPatterns)]

/-- The document that settings are printed as. -/
def outline (s : Settings) : Toml.Outline where
  pairs := if s.frameworks.isEmpty then [pair "frameworks" (.array [])] else []
  tables := s.sections
  header := "frameworks".toList
  rows := s.frameworks.map row

theorem parts_outline (s : Settings) : s.outline.parts = s.parts := by
  rw [Toml.Outline.parts, outline, List.map_map, parts]
  cases s.frameworks <;> rfl

theorem isWritable_texts (ts : List Text) : IsWritable depthLimit (texts ts) :=
  .array _ (List.forall_mem_map.2 fun t _ => .string t)

theorem isWritable_sections {s : Settings} (h : s.Printable) :
    ∀ t ∈ s.sections, ∀ pair ∈ t.2, IsWritable depthLimit pair.2 := by
  have number {n : Nat} (member : n ∈ s.numbers) : IsWritable depthLimit (number n) :=
    .integer n (h n member)
  simp only [sections, parserSection, fetchSection, contextSection, searchSection, pair,
    List.forall_mem_cons]
  refine ⟨⟨number ?_, List.forall_mem_nil _⟩,
    ⟨.string _, .string _, number ?_, number ?_, .string _, List.forall_mem_nil _⟩,
    ⟨number ?_, number ?_, number ?_, number ?_, List.forall_mem_nil _⟩,
    ⟨isWritable_texts _, number ?_, List.forall_mem_nil _⟩, List.forall_mem_nil _⟩ <;>
  · simp [numbers]

theorem isWritable_row (f : Framework) : ∀ pair ∈ row f, IsWritable depthLimit pair.2 := by
  simp only [row, pair, List.forall_mem_cons]
  exact ⟨.string _, isWritable_texts _, isWritable_texts _, isWritable_texts _,
    List.forall_mem_nil _⟩

theorem isWritable_outline {s : Settings} (h : s.Printable) :
    ∀ p ∈ s.outline.parts, ∀ pair ∈ p.pairs, IsWritable depthLimit pair.2 := by
  refine List.forall_mem_append.2 ⟨List.forall_mem_append.2 ⟨?pairs, ?tables⟩, ?rows⟩
  case pairs =>
    rw [outline]
    cases s.frameworks with
    | nil => exact List.forall_mem_singleton.2 (List.forall_mem_singleton.2 (isWritable_texts []))
    | cons => exact List.forall_mem_nil _
  case tables => exact List.forall_mem_map.2 (isWritable_sections h)
  case rows =>
    rw [outline, List.map_map]
    exact List.forall_mem_map.2 fun f _ => isWritable_row f

theorem nodup_sections (s : Settings) :
    (s.sections.map Prod.fst).Nodup ∧ ∀ t ∈ s.sections, (t.2.map Prod.fst).Nodup := by
  simp only [sections, parserSection, fetchSection, contextSection, searchSection, pair,
    List.forall_mem_cons, List.map_cons, List.map_nil]
  decide

theorem nodup_row (f : Framework) : ((row f).map Prod.fst).Nodup := by
  simp only [row, pair, List.map_cons, List.map_nil]
  decide

theorem ne_frameworks (s : Settings) : ∀ t ∈ s.sections, t.1 ≠ "frameworks".toList := by
  simp only [sections, List.forall_mem_cons]
  decide

theorem isSound_outline {s : Settings} (h : s.Printable) : s.outline.IsSound := by
  have absent : "frameworks".toList ∉ s.sections.map Prod.fst := fun inside => by
    obtain ⟨t, member, same⟩ := List.mem_map.1 inside
    exact ne_frameworks s t member same
  obtain ⟨apart, distinct⟩ := nodup_sections s
  refine ⟨?_, ?_, distinct, List.forall_mem_map.2 fun f _ => nodup_row f, isWritable_outline h⟩
  · rw [Toml.Outline.keys, outline]
    cases s.frameworks with
    | nil => exact List.nodup_cons.2 ⟨absent, apart⟩
    | cons => exact apart
  · rw [Toml.Outline.keys, outline]
    cases s.frameworks with
    | nil => exact fun some => absurd rfl some
    | cons => exact fun _ => absent

/-- The tables of the document as values. -/
def tables (s : Settings) : Table := s.sections.map fun t => (t.1, .table t.2)

/-- An empty list of frameworks stands before the sections, others after them. -/
theorem cases_table_outline (s : Settings) :
    (s.frameworks = [] ∧ s.outline.table = pair "frameworks" (.array []) :: s.tables) ∨
      s.outline.table =
        s.tables ++ [pair "frameworks" (.array (s.frameworks.map fun f => .table (row f)))] := by
  rw [Toml.Outline.table, outline, List.map_map]
  cases s.frameworks with
  | nil => exact .inl ⟨rfl, List.append_nil _⟩
  | cons => exact .inr rfl

theorem number?_number (n : Nat) : Convention.strict.number? (number n) = some n := by
  simp [Convention.strict, number]

theorem text?_string (t : Text) : Convention.strict.text? (.string t) = some t := rfl

/-- Items that are each read back are read back together. -/
theorem mapM_map_eq_some {α β : Type} {write : α → β} {read : β → Option α}
    (each : ∀ a, read (write a) = some a) (as : List α) : (as.map write).mapM read = some as := by
  induction as with
  | nil => rfl
  | cons a as ih =>
      rw [List.map_cons, List.mapM_cons, each, ih]
      rfl

theorem texts?_texts (ts : List Text) : Convention.strict.texts? (texts ts) = some ts :=
  mapM_map_eq_some text?_string ts

theorem get?_pair (key : String) (v : Value) (t : Table) :
    Table.get? (pair key v :: t) key.toList = some v := by
  have first : (key.toList == key.toList) = true := beq_self_eq_true _
  simp only [Table.get?, pair, List.find?_cons, first, Option.map_some]

theorem get?_pair_of_ne {key other : String} (apart : key ≠ other) (v : Value) (t : Table) :
    Table.get? (pair key v :: t) other.toList = Table.get? t other.toList := by
  have differ : (key.toList == other.toList) = false :=
    beq_false_of_ne (mt String.toList_inj.1 apart)
  simp only [Table.get?, pair, List.find?_cons, differ]

theorem fields?_table (t : Table) :
    Convention.strict.fields? (.table t) = some fun _ key => Table.get? t key := rfl

theorem parserOf?_parserSection (p : ParserSettings) :
    parserOf? .strict (.table (parserSection p)) = some p := by
  simp only [parserOf?, parserSection, fields?_table, field, get?_pair, number?_number,
    Option.bind_eq_bind, Option.bind_some, Option.pure_def]

theorem fetchOf?_fetchSection (f : FetchSettings) :
    fetchOf? .strict (.table (fetchSection f)) = some f := by
  simp only [fetchOf?, fetchSection, fields?_table, field, get?_pair, get?_pair_of_ne, ne_eq,
    String.reduceEq, not_false_eq_true, number?_number, text?_string, Option.bind_eq_bind,
    Option.bind_some, Option.pure_def]

theorem contextOf?_contextSection (c : ContextSettings) :
    contextOf? .strict (.table (contextSection c)) = some c := by
  simp only [contextOf?, contextSection, fields?_table, field, get?_pair, get?_pair_of_ne, ne_eq,
    String.reduceEq, not_false_eq_true, number?_number, Option.bind_eq_bind, Option.bind_some,
    Option.pure_def]

theorem searchOf?_searchSection (s : SearchSettings) :
    searchOf? .strict (.table (searchSection s)) = some s := by
  simp only [searchOf?, searchSection, fields?_table, field, get?_pair, get?_pair_of_ne, ne_eq,
    String.reduceEq, not_false_eq_true, number?_number, texts?_texts, Option.bind_eq_bind,
    Option.bind_some, Option.pure_def]

theorem frameworkOf?_row (f : Framework) :
    frameworkOf? .strict (.table (row f)) = some f := by
  simp only [frameworkOf?, row, fields?_table, field, required, get?_pair, get?_pair_of_ne, ne_eq,
    String.reduceEq, not_false_eq_true, text?_string, texts?_texts, Option.bind_eq_bind,
    Option.bind_some, Option.pure_def]

theorem frameworksOf?_rows (fs : List Framework) :
    frameworksOf? .strict (.array (fs.map fun f => .table (row f))) = some fs :=
  mapM_map_eq_some frameworkOf?_row fs

/-- A table that holds all sections and rows stands for the settings. -/
theorem ofTable?_eq_some {s : Settings} {t : Table}
    (sections : ∀ e ∈ s.sections, Table.get? t e.1 = some (.table e.2))
    (rows : Table.get? t "frameworks".toList =
      some (.array (s.frameworks.map fun f => .table (row f)))) :
    ofTable? .strict t = some s := by
  simp only [Settings.sections, List.forall_mem_cons] at sections
  obtain ⟨parser, fetch, context, search, -⟩ := sections
  simp only [ofTable?, field, parser, fetch, context, search, rows, parserOf?_parserSection,
    fetchOf?_fetchSection, contextOf?_contextSection, searchOf?_searchSection, frameworksOf?_rows]
  rfl

theorem tables_eq (s : Settings) : s.tables =
    [pair "parser" (.table (parserSection s.parser)), pair "fetch" (.table (fetchSection s.fetch)),
     pair "context" (.table (contextSection s.context)),
     pair "search" (.table (searchSection s.search))] := rfl

/-- The document stands for the settings. -/
theorem ofTable?_outline (s : Settings) : ofTable? .strict s.outline.table = some s := by
  apply ofTable?_eq_some
  · obtain ⟨-, table⟩ | table := cases_table_outline s
    all_goals
      simp only [table, tables_eq, sections, List.cons_append, List.forall_mem_cons, get?_pair,
        get?_pair_of_ne, ne_eq, String.reduceEq, not_false_eq_true, true_and]
      exact List.forall_mem_nil _
  · obtain ⟨none, table⟩ | table := cases_table_outline s
    · simp only [table, none, get?_pair, List.map_nil]
    · simp only [table, tables_eq, List.cons_append, List.nil_append, get?_pair, get?_pair_of_ne,
        ne_eq, String.reduceEq, not_false_eq_true]

/-- Whether a text, read in some way, stands for settings that keep all rules. -/
def Accepted (read? : Text → Option Table) (t : Text) (s : Settings) : Prop :=
  (read? t).bind (ofTable? .strict) = some s ∧ s.problem? = none

section
variable {read? : Text → Option Table} {write : List Part → Text}
  (faithful : Toml.Faithful read? write)
include faithful

theorem read?_write_parts {s : Settings} (h : s.Printable) :
    read? (write s.parts) = some s.outline.table := by
  rw [← parts_outline, faithful.read_write (isSound_outline h)]

/-- With a faithful reader and writer settings that a text stands for can be written, and what is
written stands for them. -/
theorem accepted_write {t : Text} {s : Settings} (accepted : Accepted read? t s) :
    s.Printable ∧ Accepted read? (write s.parts) s := by
  obtain ⟨found, fine⟩ := accepted
  obtain ⟨table, read, made⟩ := Option.bind_eq_some_iff.1 found
  have printable := printable_ofTable? (faithful.inRange read) made
  refine ⟨printable, ?_, fine⟩
  rw [read?_write_parts faithful printable, Option.bind_some, ofTable?_outline]

end

theorem ofText_eq_ok {t : Text} {s : Settings} : ofText t = .ok s ↔ Accepted Toml.read? t s := by
  rw [ofText]
  constructor
  · intro accepted
    split at accepted
    · next found =>
        rw [validated] at accepted
        split at accepted
        · exact nomatch accepted
        · next fine =>
            cases accepted
            exact ⟨found, fine⟩
    · exact nomatch accepted
  · rintro ⟨found, fine⟩
    rw [found]
    simp only [validated, fine]

/-- Settings that a text stands for are printed, and what is printed stands for them. -/
theorem ofText_toText {t : Text} {s : Settings} (accepted : ofText t = .ok s) :
    ∃ printed, s.toText = .ok printed ∧ ofText printed = .ok s := by
  obtain ⟨printable, again⟩ := accepted_write Toml.faithful (ofText_eq_ok.1 accepted)
  exact ⟨_, toText_eq printable, ofText_eq_ok.2 again⟩

/-- An agent with a quote, a backslash, a line feed and a control character. -/
def quotedAgent : Settings :=
  { fetch := { userAgent := ['"', '\\', '\n', '\x01'] }
    frameworks := [⟨"it's".toList, ["a\tb".toList], [], []⟩] }

def quotedAgentText : Text :=
  ("[fetch]\nuser_agent = \"\\\"\\\\\\n\\u0001\"\n" ++
    "[[frameworks]]\nkey = \"it's\"\npackages = ['a\tb']\n").toList

theorem ofText_toText_quotedAgent : ofText quotedAgentText = .ok quotedAgent ∧
    ∃ printed, quotedAgent.toText = .ok printed ∧ ofText printed = .ok quotedAgent :=
  have accepted : ofText quotedAgentText = .ok quotedAgent := by decide +kernel
  ⟨accepted, ofText_toText accepted⟩

end ApiReference.Settings
