import ApiReference.Settings.Document
import Mathlib.Tactic.Tauto

/-!
# Single settings

Settings are made up of single settings, each with its section, its place and name there, and of the
frameworks. A table stands for settings exactly if each single setting is what the table has in its
place. Main statement: `ofTable?_eq_some_iff`.
-/

namespace ApiReference.Settings
open ApiReference.Toml (Value Table)

/-- What a single setting holds. -/
inductive Datum where
  | number (n : Nat)
  | text (t : Text)
  | texts (ts : List Text)
  deriving DecidableEq, Repr

/-- The kind of a single setting. -/
inductive Kind where
  | number
  | text
  | texts
  deriving DecidableEq, Repr

def Datum.kind : Datum → Kind
  | .number _ => .number
  | .text _ => .text
  | .texts _ => .texts

/-- What a value means where a kind is wanted. -/
def Kind.read? (c : Convention) : Kind → Value → Option Datum
  | .number, v => (c.number? v).map .number
  | .text, v => (c.text? v).map .text
  | .texts, v => (c.texts? v).map .texts

/-- A single setting: its section, its place and name there, its kind and where it is kept. -/
structure Leaf where
  part : String
  place : Nat
  name : String
  kind : Kind
  get : Settings → Datum

/-- All single settings. -/
def leaves : List Leaf :=
  [⟨"parser", 0, "cache_capacity", .number, fun s => .number s.parser.cacheCapacity⟩,
   ⟨"fetch", 0, "registry_url", .text, fun s => .text s.fetch.registryUrl⟩,
   ⟨"fetch", 1, "cdn_url", .text, fun s => .text s.fetch.cdnUrl⟩,
   ⟨"fetch", 2, "timeout_secs", .number, fun s => .number s.fetch.timeoutSeconds⟩,
   ⟨"fetch", 3, "max_cached_responses", .number, fun s => .number s.fetch.maxCachedResponses⟩,
   ⟨"fetch", 4, "user_agent", .text, fun s => .text s.fetch.userAgent⟩,
   ⟨"context", 0, "default_max_examples", .number, fun s => .number s.context.defaultMaxExamples⟩,
   ⟨"context", 1, "max_response_chars", .number, fun s => .number s.context.maxResponseChars⟩,
   ⟨"context", 2, "related_type_max_chars", .number,
    fun s => .number s.context.relatedTypeMaxChars⟩,
   ⟨"context", 3, "similar_api_limit", .number, fun s => .number s.context.similarApiLimit⟩,
   ⟨"search", 0, "default_frameworks", .texts, fun s => .texts s.search.defaultFrameworks⟩,
   ⟨"search", 1, "default_limit", .number, fun s => .number s.search.defaultLimit⟩]

theorem kind_read? {c : Convention} {k : Kind} {v : Value} {d : Datum}
    (read : k.read? c v = some d) : d.kind = k := by
  cases k <;>
    (obtain ⟨_, -, rfl⟩ := Option.map_eq_some_iff.1 read; rfl)

theorem kind_get (s : Settings) : ∀ l ∈ leaves, (l.get s).kind = l.kind := by
  simp only [leaves, List.forall_mem_cons, Datum.kind, true_and]
  exact List.forall_mem_nil _

/-- Settings can have any single settings of the right kinds. -/
theorem exists_settings (value : Leaf → Datum) (kinds : ∀ l ∈ leaves, (value l).kind = l.kind)
    (frameworks : List Framework) :
    ∃ s : Settings, s.frameworks = frameworks ∧ ∀ l ∈ leaves, l.get s = value l := by
  have number {d : Datum} (kind : d.kind = .number) : ∃ n, .number n = d := by
    cases d <;> first | exact ⟨_, rfl⟩ | cases kind
  have text {d : Datum} (kind : d.kind = .text) : ∃ t, .text t = d := by
    cases d <;> first | exact ⟨_, rfl⟩ | cases kind
  have texts {d : Datum} (kind : d.kind = .texts) : ∃ ts, .texts ts = d := by
    cases d <;> first | exact ⟨_, rfl⟩ | cases kind
  simp only [leaves, List.forall_mem_cons] at kinds ⊢
  obtain ⟨capacity, registry, cdn, timeout, responses, agent, examples, response, related, similar,
    names, limit, -⟩ := kinds
  obtain ⟨_, capacity⟩ := number capacity
  obtain ⟨_, registry⟩ := text registry
  obtain ⟨_, cdn⟩ := text cdn
  obtain ⟨_, timeout⟩ := number timeout
  obtain ⟨_, responses⟩ := number responses
  obtain ⟨_, agent⟩ := text agent
  obtain ⟨_, examples⟩ := number examples
  obtain ⟨_, response⟩ := number response
  obtain ⟨_, related⟩ := number related
  obtain ⟨_, similar⟩ := number similar
  obtain ⟨_, names⟩ := texts names
  obtain ⟨_, limit⟩ := number limit
  exact ⟨⟨⟨_⟩, ⟨_, _, _, _, _⟩, ⟨_, _, _, _⟩, ⟨_, _⟩, frameworks⟩, rfl, capacity, registry, cdn,
    timeout, responses, agent, examples, response, related, similar, names, limit,
    List.forall_mem_nil _⟩

theorem ext_leaves {s s' : Settings} (frameworks : s.frameworks = s'.frameworks)
    (same : ∀ l ∈ leaves, l.get s = l.get s') : s = s' := by
  obtain ⟨⟨_⟩, ⟨_, _, _, _, _⟩, ⟨_, _, _, _⟩, ⟨_, _⟩, _⟩ := s
  obtain ⟨⟨_⟩, ⟨_, _, _, _, _⟩, ⟨_, _, _, _⟩, ⟨_, _⟩, _⟩ := s'
  simp only [leaves, List.forall_mem_cons, Datum.number.injEq, Datum.text.injEq,
    Datum.texts.injEq] at same
  obtain ⟨rfl, rfl, rfl, rfl, rfl, rfl, rfl, rfl, rfl, rfl, rfl, rfl, -⟩ := same
  cases frameworks
  rfl

def partNames : List String := ["parser", "fetch", "context", "search"]

/-- What a table has in the fields of a section. -/
def fieldsAt (c : Convention) (t : Table) (part : String) (i : Nat) (key : Text) : Option Value :=
  ((Table.get? t part.toList).bind c.fields?).bind fun f => f i key

/-- Whether a section, if a table has it, is a value with fields. -/
def Readable (c : Convention) (t : Table) (part : String) : Prop :=
  ∀ v, Table.get? t part.toList = some v → ∃ f, c.fields? v = some f

/-- Whether a single setting is what a table has in its place, or the default if there is nothing. -/
def Leaf.Stands (c : Convention) (t : Table) (l : Leaf) (s : Settings) : Prop :=
  field (fieldsAt c t l.part) l.place l.name (l.kind.read? c) (l.get {}) = some (l.get s)

instance (c : Convention) (t : Table) (l : Leaf) (s : Settings) : Decidable (l.Stands c t s) :=
  inferInstanceAs (Decidable (_ = _))

section
variable {c : Convention} {t : Table} {part : String}

section
variable {f : Nat → Text → Option Value} {i : Nat} {key : String}

theorem field_map_iff {α β : Type} {make : α → β} (injective : Function.Injective make)
    {convert : Value → Option α} {default a : α} :
    field f i key (fun v => (convert v).map make) (make default) = some (make a) ↔
      field f i key convert default = some a := by
  unfold field
  cases f i key.toList with
  | none => simp only [Option.some.injEq, injective.eq_iff]
  | some v => simp only [Option.map_eq_some_iff, injective.eq_iff, exists_eq_right]

theorem field_number_iff {default n : Nat} :
    field f i key (Kind.number.read? c) (.number default) = some (.number n) ↔
      field f i key c.number? default = some n :=
  field_map_iff fun _ _ => Datum.number.inj

theorem field_text_iff {default t : Text} :
    field f i key (Kind.text.read? c) (.text default) = some (.text t) ↔
      field f i key c.text? default = some t :=
  field_map_iff fun _ _ => Datum.text.inj

theorem field_texts_iff {default ts : List Text} :
    field f i key (Kind.texts.read? c) (.texts default) = some (.texts ts) ↔
      field f i key c.texts? default = some ts :=
  field_map_iff fun _ _ => Datum.texts.inj

end

/-- A section is read through its fields. -/
theorem field_part_iff {α : Type} (parse : Value → Option α)
    {read : (Nat → Text → Option Value) → Option α} {i : Nat} {default a : α}
    (opens : ∀ v, parse v = (c.fields? v).bind read)
    (missing : read (fun _ _ => none) = some default) :
    field (fun _ key => Table.get? t key) i part parse default = some a ↔
      Readable c t part ∧ read (fieldsAt c t part) = some a := by
  cases found : Table.get? t part.toList with
  | none =>
      have nothing : fieldsAt c t part = fun _ _ => none := by
        unfold fieldsAt
        rw [found]
        rfl
      simp only [field, found, nothing, missing, Readable, reduceCtorEq, false_implies,
        implies_true, true_and]
  | some v =>
      cases fields : c.fields? v with
      | none => simp [field, found, opens, fields, Readable]
      | some f =>
          have same : fieldsAt c t part = f := by
            unfold fieldsAt
            rw [found, Option.bind_some, fields]
            rfl
          simp [field, found, opens, fields, same, Readable]

variable {s : Settings}

/-- Whether a section is what a table has under its name. -/
def StandsAt (c : Convention) (t : Table) (part : String) (s : Settings) : Prop :=
  Readable c t part ∧ ∀ l ∈ leaves, l.part = part → l.Stands c t s

theorem parserOf?_iff : field (fun _ key => Table.get? t key) 0 "parser" (parserOf? c) {} =
    some s.parser ↔ StandsAt c t "parser" s := by
  refine (field_part_iff (parserOf? c) (fun _ => rfl) rfl).trans (and_congr_right' ?_)
  simp only [leaves, List.forall_mem_cons, Leaf.Stands, field_number_iff,
    String.reduceEq, Option.bind_eq_bind, Option.bind_eq_some_iff, Option.pure_def,
    Option.some.injEq, List.not_mem_nil, true_implies, false_implies, implies_true, and_true]
  constructor
  · rintro ⟨capacity, read, made⟩
    rw [← made]
    exact read
  · exact fun read => ⟨_, read, rfl⟩

theorem fetchOf?_iff : field (fun _ key => Table.get? t key) 1 "fetch" (fetchOf? c) {} =
    some s.fetch ↔ StandsAt c t "fetch" s := by
  refine (field_part_iff (fetchOf? c) (fun _ => rfl) rfl).trans (and_congr_right' ?_)
  simp only [leaves, List.forall_mem_cons, Leaf.Stands, field_number_iff, field_text_iff,
    String.reduceEq, Option.bind_eq_bind, Option.bind_eq_some_iff, Option.pure_def,
    Option.some.injEq, List.not_mem_nil, true_implies, false_implies, implies_true, true_and,
    and_true]
  constructor
  · rintro ⟨_, registry, _, cdn, _, timeout, _, responses, _, agent, made⟩
    rw [← made]
    exact ⟨registry, cdn, timeout, responses, agent⟩
  · rintro ⟨registry, cdn, timeout, responses, agent⟩
    exact ⟨_, registry, _, cdn, _, timeout, _, responses, _, agent, rfl⟩

theorem contextOf?_iff : field (fun _ key => Table.get? t key) 2 "context" (contextOf? c) {} =
    some s.context ↔ StandsAt c t "context" s := by
  refine (field_part_iff (contextOf? c) (fun _ => rfl) rfl).trans (and_congr_right' ?_)
  simp only [leaves, List.forall_mem_cons, Leaf.Stands, field_number_iff,
    String.reduceEq, Option.bind_eq_bind, Option.bind_eq_some_iff, Option.pure_def,
    Option.some.injEq, List.not_mem_nil, true_implies, false_implies, implies_true, true_and,
    and_true]
  constructor
  · rintro ⟨_, examples, _, response, _, related, _, similar, made⟩
    rw [← made]
    exact ⟨examples, response, related, similar⟩
  · rintro ⟨examples, response, related, similar⟩
    exact ⟨_, examples, _, response, _, related, _, similar, rfl⟩

theorem searchOf?_iff : field (fun _ key => Table.get? t key) 3 "search" (searchOf? c) {} =
    some s.search ↔ StandsAt c t "search" s := by
  refine (field_part_iff (searchOf? c) (fun _ => rfl) rfl).trans (and_congr_right' ?_)
  simp only [leaves, List.forall_mem_cons, Leaf.Stands, field_number_iff, field_texts_iff,
    String.reduceEq, Option.bind_eq_bind, Option.bind_eq_some_iff, Option.pure_def,
    Option.some.injEq, List.not_mem_nil, true_implies, false_implies, implies_true, true_and,
    and_true]
  constructor
  · rintro ⟨_, frameworks, _, limit, made⟩
    rw [← made]
    exact ⟨frameworks, limit⟩
  · rintro ⟨frameworks, limit⟩
    exact ⟨_, frameworks, _, limit, rfl⟩

def frameworksAt? (c : Convention) (t : Table) : Option (List Framework) :=
  field (fun _ key => Table.get? t key) 4 "frameworks" (frameworksOf? c) []

theorem part_mem : ∀ l ∈ leaves, l.part ∈ partNames := by decide

theorem forall_leaves_iff {P : Leaf → Prop} :
    (∀ part ∈ partNames, ∀ l ∈ leaves, l.part = part → P l) ↔ ∀ l ∈ leaves, P l :=
  ⟨fun each l member => each l.part (part_mem l member) l member rfl,
    fun each _ _ l member _ => each l member⟩

/-- A table stands for settings exactly if its sections have fields, each single setting is what
the table has in its place, and the frameworks are those of the table. -/
theorem ofTable?_eq_some_iff : ofTable? c t = some s ↔
    (∀ part ∈ partNames, Readable c t part) ∧ (∀ l ∈ leaves, l.Stands c t s) ∧
      frameworksAt? c t = some s.frameworks := by
  have parts : (∀ part ∈ partNames, Readable c t part) ∧ (∀ l ∈ leaves, l.Stands c t s) ↔
      StandsAt c t "parser" s ∧ StandsAt c t "fetch" s ∧ StandsAt c t "context" s ∧
        StandsAt c t "search" s := by
    rw [← forall_leaves_iff]
    simp only [partNames, List.forall_mem_cons, StandsAt, List.not_mem_nil, false_implies,
      implies_true, and_true]
    constructor
    · rintro ⟨⟨parser, fetch, context, search⟩, atParser, atFetch, atContext, atSearch⟩
      exact ⟨⟨parser, atParser⟩, ⟨fetch, atFetch⟩, ⟨context, atContext⟩, search, atSearch⟩
    · rintro ⟨⟨parser, atParser⟩, ⟨fetch, atFetch⟩, ⟨context, atContext⟩, search, atSearch⟩
      exact ⟨⟨parser, fetch, context, search⟩, atParser, atFetch, atContext, atSearch⟩
  rw [← and_assoc, parts, ← parserOf?_iff, ← fetchOf?_iff, ← contextOf?_iff, ← searchOf?_iff]
  simp only [ofTable?, Option.bind_eq_bind, Option.bind_eq_some_iff, Option.pure_def,
    Option.some.injEq]
  constructor
  · rintro ⟨_, parser, _, fetch, _, context, _, search, _, frameworks, made⟩
    rw [← made]
    exact ⟨⟨parser, fetch, context, search⟩, frameworks⟩
  · rintro ⟨⟨parser, fetch, context, search⟩, frameworks⟩
    exact ⟨_, parser, _, fetch, _, context, _, search, _, frameworks, rfl⟩

end
end ApiReference.Settings
