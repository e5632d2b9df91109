import ApiReference.Proofs.Catalog.Keys
import ApiReference.Proofs.Text.EditDistance
import ApiReference.Proofs.Text.Parts
import ApiReference.Proofs.Text.Pattern
import ApiReference.Query.Parse
import Mathlib.Data.List.Nodup
import Mathlib.Data.Rat.Floor
import Mathlib.Tactic.Linarith

/-!
# Evidence for a framework

What speaks for an entry of the catalog in a query is said for each step by itself, and so is the
form of a package name. Every step answers with an entry that it has evidence for, unless there is
none. Main statements: `answers_package`, `answers_key`, `answers_phrase`, `answers_alias`,
`answers_api`, `answers_fuzzy`, `detectDynamic_eq_some`, `detectDynamic_eq_none`.
-/

namespace ApiReference

namespace Query
open Text (Pattern Hit)

/-- What a token by itself is to an entry of the catalog. -/
def Token.Shows (catalog : Catalog) (t : Token) (f : Framework) : Step → Prop
  | .packageName => ∃ p ∈ f.packages, Text.lower p = Text.lower t.written
  | .frameworkKey => t.lower = f.key ∨ t.lower = f.compactKey
  | .aliasName => ∃ a ∈ f.aliases, ' ' ∉ a ∧ a = t.lower
  | .apiPattern => (6 ≤ t.lower.length ∨ "use".toList <+: t.lower) ∧ t.lower ∈ f.apiPatterns ∧
      ∀ g ∈ catalog.entries, t.lower ∈ g.apiPatterns → g = f
  | .fuzzy => isContentToken t = true ∧ 3 ≤ t.lower.length ∧
      ∃ n, IsLeast {n | Text.Edits n t.lower f.key} n ∧ 1 ≤ n ∧ n ≤ ⌈(3 / 10 : ℚ) * f.key.length⌉₊
  | .dynamic => False

/-- What in a query speaks for an entry: a token, or another name of several words that stands in the
tokens in lower case with a space between two of them. -/
def Evidence (catalog : Catalog) (tokens : List Token) (f : Framework) : Step → Prop
  | .aliasName =>
      (∃ a ∈ f.aliases, ' ' ∈ a ∧ a <:+: Text.join [' '] (tokens.map Token.lower)) ∨
      ∃ t ∈ tokens, t.Shows catalog f .aliasName
  | step => ∃ t ∈ tokens, t.Shows catalog f step

/-- The part of a package name before or after a slash. -/
def IsNamePart (w : Text) : Prop :=
  ∃ c rest, w = c :: rest ∧ isPackageStart c = true ∧ ∀ d ∈ rest, isPackageChar d = true

/-- A package name, with or without a scope. -/
def IsPackageName (w : Text) : Prop :=
  IsNamePart w ∨ ∃ scope name, w = '@' :: scope ++ '/' :: name ∧ IsNamePart scope ∧ IsNamePart name

/-- Whether there is anything to find for a step. -/
def Found (catalog : Catalog) (tokens : List Token) : Step → Prop
  | .dynamic => ∃ t ∈ tokens, isContentToken t = true ∧ 2 ≤ t.lower.length ∧ IsPackageName t.lower
  | step => ∃ f ∈ catalog.entries, Evidence catalog tokens f step

theorem found_iff {catalog : Catalog} {tokens : List Token} {step : Step}
    (known : step ≠ .dynamic) : Found catalog tokens step ↔
      ∃ f ∈ catalog.entries, Evidence catalog tokens f step := by
  cases step with
  | dynamic => exact absurd rfl known
  | _ => rfl

theorem map_snd_indexed (tokens : List Token) : (indexed tokens).map Prod.snd = tokens :=
  List.map_snd_zip (Nat.le_of_eq List.length_range.symm)

theorem exists_mem_indexed {tokens : List Token} {t : Token} :
    (∃ i, (i, t) ∈ indexed tokens) ↔ t ∈ tokens := by
  conv_rhs => rw [← map_snd_indexed tokens]
  simp only [List.mem_map, Prod.exists, exists_eq_right]

theorem Token.lower_eq {query : Text} {t : Token} (member : t ∈ tokens query) :
    t.lower = Text.lower t.written := by
  obtain ⟨word, -, made⟩ := List.mem_flatMap.mp member
  unfold ofWord at made
  simp only at made
  split at made
  · exact nomatch made
  · split at made
    · rcases List.mem_pair.mp made with rfl | rfl <;> rfl
    · obtain rfl := List.mem_singleton.mp made
      rfl

/-- A step's answer: an entry that there is evidence for, or none if there is no such entry. -/
structure Answers (catalog : Catalog) (step : Step) (evidence : Framework → Prop)
    (answer : Option Detection) : Prop where
  sound : ∀ d, answer = some d → d.target.step = step ∧
    ∃ f ∈ catalog.entries, evidence f ∧ d.target.framework = f.key
  complete : answer = none → ∀ f ∈ catalog.entries, ¬ evidence f

section
variable {catalog : Catalog} {tokens : List Token} {step : Step}

theorem Answers.or {evidence evidence' : Framework → Prop} {answer answer' : Option Detection}
    (first : Answers catalog step evidence answer) (second : Answers catalog step evidence' answer') :
    Answers catalog step (fun f => evidence f ∨ evidence' f) (answer <|> answer') := by
  cases answer with
  | none =>
      constructor
      · intro d found
        obtain ⟨same, f, member, shown, key⟩ := second.sound d found
        exact ⟨same, f, member, .inr shown, key⟩
      · intro nothing f member
        exact not_or_intro (first.complete rfl f member) (second.complete nothing f member)
  | some d =>
      constructor
      · rintro _ ⟨⟩
        obtain ⟨same, f, member, shown, key⟩ := first.sound d rfl
        exact ⟨same, f, member, .inl shown, key⟩
      · exact fun nothing => nomatch nothing

/-- The first token and for it the first entry that fits. -/
theorem Answers.of_tokens {l : List (Nat × Token)} (fits : Token → Framework → Bool)
    (make : Nat → Token → Framework → Detection)
    (shows : ∀ t f, (∃ i, (i, t) ∈ l) ∧ fits t f = true ↔ t ∈ tokens ∧ t.Shows catalog f step)
    (made : ∀ i t f, (make i t f).target.step = step ∧ (make i t f).target.framework = f.key) :
    Answers catalog step (fun f => ∃ t ∈ tokens, t.Shows catalog f step)
      (l.findSome? fun (i, t) => (catalog.entries.find? (fits t)).map (make i t)) := by
  constructor
  · intro d found
    obtain ⟨⟨i, t⟩, within, found⟩ := List.exists_of_findSome?_eq_some found
    obtain ⟨f, first, rfl⟩ := Option.map_eq_some_iff.mp found
    have shown := (shows t f).mp ⟨⟨i, within⟩, List.find?_some first⟩
    exact ⟨(made i t f).1, f, List.mem_of_find?_eq_some first, ⟨t, shown⟩, (made i t f).2⟩
  · rintro nothing f member ⟨t, shown⟩
    obtain ⟨⟨i, within⟩, fit⟩ := (shows t f).mpr shown
    have unmapped := List.findSome?_eq_none_iff.mp nothing (i, t) within
    have none := Option.map_eq_none_iff.mp unmapped
    exact List.find?_eq_none.mp none f member fit

theorem answers_package (lowered : ∀ t ∈ tokens, t.lower = Text.lower t.written) :
    Answers catalog .packageName (Evidence catalog tokens · .packageName)
      (detectPackage catalog tokens) := by
  refine .of_tokens (fun t f => f.packages.any fun p => Text.lower p == Text.lower t.lower)
    (fun i t f => ⟨⟨f.key, t.lower, .packageName⟩, [i]⟩) ?_ fun _ _ _ => ⟨rfl, rfl⟩
  intro t f
  rw [exists_mem_indexed]
  refine and_congr_right fun member => ?_
  rw [lowered t member, Text.lower_lower, List.any_eq_true]
  simp only [beq_iff_eq, Token.Shows]

theorem answers_key : Answers catalog .frameworkKey (Evidence catalog tokens · .frameworkKey)
    (detectKey catalog tokens) := by
  refine .of_tokens (fun t f => t.lower == f.key || t.lower == f.compactKey)
    (fun i _ f => .ofFramework f .frameworkKey [i]) ?_ fun _ _ _ => ⟨rfl, rfl⟩
  intro t f
  simp only [exists_mem_indexed, Bool.or_eq_true, beq_iff_eq, Token.Shows]

theorem isPhrase_iff {name : Text} : isPhrase name = true ↔ ' ' ∈ name := by
  rw [isPhrase, List.contains_iff_mem]

theorem answers_phrase : Answers catalog .aliasName
    (fun f => ∃ a ∈ f.aliases, ' ' ∈ a ∧ a <:+: Text.join [' '] (tokens.map Token.lower))
    (detectPhrase catalog tokens (normalize tokens)) := by
  have fits (a : Text) : (isPhrase a && Text.occursIn a (normalize tokens)) = true ↔
      ' ' ∈ a ∧ a <:+: Text.join [' '] (tokens.map Token.lower) := by
    rw [Bool.and_eq_true, isPhrase_iff, Text.occursIn_iff, normalize]
  constructor
  · intro d found
    obtain ⟨f, member, found⟩ := List.exists_of_findSome?_eq_some found
    obtain ⟨a, first, rfl⟩ := Option.map_eq_some_iff.mp found
    have phrase := List.find?_some first
    exact ⟨rfl, f, member, ⟨a, List.mem_of_find?_eq_some first, (fits a).mp phrase⟩, rfl⟩
  · rintro nothing f member ⟨a, listed, phrase⟩
    have unmapped := List.findSome?_eq_none_iff.mp nothing f member
    have none := Option.map_eq_none_iff.mp unmapped
    exact List.find?_eq_none.mp none a listed ((fits a).mpr phrase)

theorem answers_alias : Answers catalog .aliasName
    (fun f => ∃ t ∈ tokens, t.Shows catalog f .aliasName) (detectAlias catalog tokens) := by
  refine .of_tokens (fun t f => f.aliases.any fun a => !isPhrase a && a == t.lower)
    (fun i _ f => .ofFramework f .aliasName [i]) ?_ fun _ _ _ => ⟨rfl, rfl⟩
  intro t f
  simp only [exists_mem_indexed, List.any_eq_true, Bool.and_eq_true, Bool.not_eq_true',
    ← Bool.not_eq_true, isPhrase_iff, beq_iff_eq, Token.Shows]

theorem filter_eq_singleton {α : Type} {p : α → Bool} {l : List α} (distinct : l.Nodup) {a : α} :
    l.filter p = [a] ↔ (a ∈ l ∧ p a = true) ∧ ∀ b ∈ l, p b = true → b = a := by
  have once : (l.filter p).Nodup := distinct.filter p
  constructor
  · intro single
    have member : ∀ b, b ∈ l.filter p ↔ b = a := by simp [single]
    refine ⟨List.mem_filter.mp ((member a).mpr rfl), fun b within fits => ?_⟩
    exact (member b).mp (List.mem_filter.mpr ⟨within, fits⟩)
  · rintro ⟨own, only⟩
    apply List.perm_singleton.mp
    rw [List.perm_ext_iff_of_nodup once (List.nodup_singleton a)]
    intro b
    rw [List.mem_filter, List.mem_singleton]
    exact ⟨fun fits => only b fits.1 fits.2, fun same => same ▸ own⟩

/-- An identifier has one key when one entry lists it. -/
theorem keysForApi_eq_singleton (distinct : catalog.keys.Nodup) {api key : Text} :
    catalog.keysForApi api = [key] ↔ ∃ f ∈ catalog.entries, f.key = key ∧ api ∈ f.apiPatterns ∧
      ∀ g ∈ catalog.entries, api ∈ g.apiPatterns → g = f := by
  have apart : catalog.entries.Nodup := List.Nodup.of_map Framework.key distinct
  rw [Catalog.keysForApi, List.map_eq_singleton_iff]
  simp only [filter_eq_singleton apart, List.any_beq', List.contains_iff_mem]
  constructor
  · rintro ⟨f, ⟨⟨member, pattern⟩, only⟩, same⟩
    exact ⟨f, member, same, pattern, only⟩
  · rintro ⟨f, member, same, pattern, only⟩
    exact ⟨f, ⟨⟨member, pattern⟩, only⟩, same⟩

theorem maybeIdentifier_iff {t : Token} :
    maybeIdentifier t = true ↔ 6 ≤ t.lower.length ∨ "use".toList <+: t.lower := by
  rw [maybeIdentifier, Bool.or_eq_true, decide_eq_true_iff, Text.startsWith_iff]

theorem answers_api (keyed : catalog.Keyed) : Answers catalog .apiPattern
    (Evidence catalog tokens · .apiPattern) (detectApi catalog tokens) := by
  constructor
  · intro d found
    obtain ⟨t, among, found⟩ := List.exists_of_findSome?_eq_some found
    obtain ⟨member, long⟩ := List.mem_filter.mp among
    split at found
    · next key single =>
        obtain ⟨f, known, rfl, pattern, only⟩ := (keysForApi_eq_singleton keyed.nodup).mp single
        rw [keyed.get?_of_mem known (keyed.lower f known)] at found
        obtain rfl := Option.some.inj found
        exact ⟨rfl, f, known, ⟨t, member, maybeIdentifier_iff.mp long, pattern, only⟩, rfl⟩
    · exact nomatch found
  · rintro nothing f known ⟨t, member, long, pattern, only⟩
    have among := List.mem_filter.mpr ⟨member, maybeIdentifier_iff.mpr long⟩
    have skipped := List.findSome?_eq_none_iff.mp nothing t among
    have single := (keysForApi_eq_singleton keyed.nodup).mpr ⟨f, known, rfl, pattern, only⟩
    simp only [single, keyed.get?_of_mem known (keyed.lower f known), Option.map_some] at skipped
    exact nomatch skipped

theorem tolerance_eq_ceil (key : Text) : tolerance key = ⌈(3 / 10 : ℚ) * key.length⌉₊ := by
  refine eq_of_forall_ge_iff fun n => ?_
  have scaled : (3 / 10 : ℚ) * key.length ≤ n ↔ 3 * key.length ≤ 10 * n := by
    rw [← Nat.cast_le (α := ℚ), Nat.cast_mul, Nat.cast_mul, Nat.cast_ofNat, Nat.cast_ofNat]
    constructor <;> intro <;> linarith
  rw [Nat.ceil_le, scaled, tolerance]
  omega

theorem answers_fuzzy : Answers catalog .fuzzy (Evidence catalog tokens · .fuzzy)
    (detectFuzzy catalog tokens) := by
  refine .of_tokens
    (fun t f => 0 < Text.editDistance t.lower f.key &&
      decide (Text.editDistance t.lower f.key ≤ tolerance f.key))
    (fun i _ f => .ofFramework f .fuzzy [i]) ?_ fun _ _ _ => ⟨rfl, rfl⟩
  intro t f
  have near : (∃ n, IsLeast {n | Text.Edits n t.lower f.key} n ∧ 1 ≤ n ∧
      n ≤ ⌈(3 / 10 : ℚ) * f.key.length⌉₊) ↔
      1 ≤ Text.editDistance t.lower f.key ∧ Text.editDistance t.lower f.key ≤ tolerance f.key := by
    rw [← tolerance_eq_ceil]
    constructor
    · rintro ⟨n, least, range⟩
      rwa [(Text.isLeast_editDistance t.lower f.key).unique least]
    · exact fun range => ⟨_, Text.isLeast_editDistance t.lower f.key, range⟩
  simp only [List.mem_filter, exists_and_right, exists_mem_indexed, Bool.and_eq_true,
    decide_eq_true_iff, Token.Shows, near]
  constructor
  · rintro ⟨⟨member, long, content⟩, range⟩
    exact ⟨member, content, long, range⟩
  · rintro ⟨member, content, long, range⟩
    exact ⟨⟨member, long, content⟩, range⟩

theorem exists_reads_name {h : Hit} {rest : Text} :
    (∃ h', Pattern.Reads (.seq (.one isPackageStart) (.many (.one isPackageChar))) h h' ∧
      h'.rest = rest) ↔ ∃ w, IsNamePart w ∧ h.rest = w ++ rest := by
  constructor
  · rintro ⟨h', reads, rfl⟩
    obtain ⟨m, first, more⟩ := Pattern.reads_seq.mp reads
    obtain ⟨c, _, next, start, rfl⟩ := Pattern.reads_one.mp first
    obtain ⟨w, each, passes⟩ := more.many_one
    refine ⟨c :: w, ⟨c, w, rfl, start, each⟩, ?_⟩
    rw [next, List.cons_append, ← passes.rest]
  · rintro ⟨_, ⟨c, w, rfl, start, each⟩, next⟩
    have first := Pattern.reads_one.mpr ⟨c, w ++ rest, next, start, rfl⟩
    obtain ⟨h', more, final⟩ := Pattern.exists_reads_many_one (h := { h with
      taken := c :: h.taken, before := some c, rest := w ++ rest }) rfl each
    exact ⟨h', .seq first more, final⟩

theorem exists_reads_scope {h : Hit} {rest : Text} :
    (∃ m, Pattern.Reads (.all [.one (· == '@'), .seq (.one isPackageStart)
      (.many (.one isPackageChar)), .one (· == '/')]) h m ∧ m.rest = rest) ↔
      ∃ scope, IsNamePart scope ∧ h.rest = '@' :: scope ++ '/' :: rest := by
  constructor
  · rintro ⟨m, reads, rfl⟩
    obtain ⟨m₁, atSign, reads⟩ := Pattern.reads_all_cons.mp reads
    obtain ⟨m₂, name, reads⟩ := Pattern.reads_all_cons.mp reads
    obtain ⟨m₃, slash, reads⟩ := Pattern.reads_all_cons.mp reads
    obtain rfl := Pattern.reads_all_nil.mp reads
    obtain ⟨c, _, next, isAt, rfl⟩ := Pattern.reads_one.mp atSign
    obtain ⟨d, _, next', isSlash, rfl⟩ := Pattern.reads_one.mp slash
    obtain ⟨scope, part, passed⟩ := exists_reads_name.mp ⟨m₂, name, next'⟩
    obtain rfl : c = '@' := beq_iff_eq.mp isAt
    obtain rfl : d = '/' := beq_iff_eq.mp isSlash
    exact ⟨scope, part, next.trans (congrArg ('@' :: ·) passed)⟩
  · rintro ⟨scope, part, next⟩
    have atSign := Pattern.reads_one (p := (· == '@')).mpr ⟨'@', _, next, rfl, rfl⟩
    obtain ⟨m, name, next'⟩ := exists_reads_name (h := { h with
      taken := '@' :: h.taken, before := some '@', rest := scope ++ '/' :: rest }).mpr
      ⟨scope, part, rfl⟩
    have slash := Pattern.reads_one (p := (· == '/')).mpr ⟨'/', rest, next', rfl, rfl⟩
    have reads := Pattern.reads_all_cons.mpr ⟨_, atSign, Pattern.reads_all_cons.mpr
      ⟨m, name, Pattern.reads_all_cons.mpr ⟨_, slash, Pattern.reads_all_nil.mpr rfl⟩⟩⟩
    exact ⟨_, reads, rfl⟩

theorem accepts_packageName {w : Text} : packageName.accepts w = true ↔ IsPackageName w := by
  simp only [Pattern.accepts, List.any_eq_true, Pattern.mem_ends_iff, List.isEmpty_iff]
  constructor
  · rintro ⟨h', reads, ended⟩
    obtain ⟨m, first, second⟩ := Pattern.reads_seq.mp reads
    obtain ⟨name, part, rest⟩ := exists_reads_name.mp ⟨h', second, ended⟩
    rw [List.append_nil] at rest
    cases first with
    | preferred first =>
        obtain ⟨scope, part', whole⟩ := exists_reads_scope.mp ⟨m, first, rest⟩
        exact .inr ⟨scope, name, whole, part', part⟩
    | other first =>
        cases first
        obtain rfl : w = name := rest
        exact .inl part
  · rintro (part | ⟨scope, name, rfl, part', part⟩)
    · have whole : (Hit.start none w).rest = w ++ [] := (List.append_nil w).symm
      obtain ⟨h', reads, ended⟩ := exists_reads_name.mpr ⟨w, part, whole⟩
      exact ⟨h', .seq (.other .empty) reads, ended⟩
    · obtain ⟨m, first, rest⟩ := exists_reads_scope
        (h := .start none ('@' :: scope ++ '/' :: name)).mpr ⟨scope, part', rfl⟩
      have whole : m.rest = name ++ [] := rest.trans (List.append_nil name).symm
      obtain ⟨h', second, ended⟩ := exists_reads_name.mpr ⟨name, part, whole⟩
      exact ⟨h', .seq (.preferred first) second, ended⟩

theorem detectDynamic_eq_some {d : Detection} (found : detectDynamic tokens = some d) :
    d.target.step = .dynamic ∧ Found catalog tokens .dynamic := by
  obtain ⟨⟨i, t⟩, within, found⟩ := List.exists_of_findSome?_eq_some found
  simp only at found
  split at found
  · next candidate =>
      rw [Bool.and_eq_true, Bool.and_eq_true, decide_eq_true_iff, accepts_packageName] at candidate
      obtain ⟨⟨long, content⟩, name⟩ := candidate
      obtain rfl := Option.some.inj found
      exact ⟨rfl, t, exists_mem_indexed.mp ⟨i, within⟩, content, long, name⟩
  · exact nomatch found

theorem detectDynamic_eq_none (nothing : detectDynamic tokens = none) :
    ¬ Found catalog tokens .dynamic := by
  rintro ⟨t, member, content, long, name⟩
  obtain ⟨i, within⟩ := exists_mem_indexed.mpr member
  have skipped := List.findSome?_eq_none_iff.mp nothing (i, t) within
  simp only [long, content, accepts_packageName.mpr name, decide_true, Bool.and_self,
    if_true] at skipped
  exact nomatch skipped

end
end Query
end ApiReference
