import ApiReference.Proofs.Query.Evidence

/-!
# The first step that finds something

A query is detected by the first step, in order of precedence, for which there is any evidence, and
its framework is an entry of the catalog that the evidence speaks for. Main statement:
`parse_detects_first`.
-/

namespace ApiReference.Query

/-- The place of a step in the order of precedence. -/
def Step.rank : Step → Nat
  | packageName => 0
  | frameworkKey => 1
  | aliasName => 2
  | apiPattern => 3
  | fuzzy => 4
  | dynamic => 5

def Step.precedence : List Step :=
  [.packageName, .frameworkKey, .aliasName, .apiPattern, .fuzzy, .dynamic]

theorem Step.mem_precedence (s : Step) : s ∈ Step.precedence := by cases s <;> decide

theorem Step.pairwise_precedence : Step.precedence.Pairwise fun s s' => s.rank < s'.rank := by
  decide

theorem Step.rank_injective {s s' : Step} (same : s.rank = s'.rank) : s = s' := by
  cases s <;> cases s' <;> first | rfl | exact nomatch same

theorem Step.eq_of_rank_le {s : Step} (early : s.rank ≤ Step.rank .frameworkKey) :
    s = .packageName ∨ s = .frameworkKey := by
  cases s with
  | packageName => exact .inl rfl
  | frameworkKey => exact .inr rfl
  | _ => exact absurd early (by decide)

/-- A step for which there is something to find, when there is nothing for those before it. -/
def IsFirst (catalog : Catalog) (tokens : List Token) (step : Step) : Prop :=
  Found catalog tokens step ∧ ∀ earlier, earlier.rank < step.rank → ¬ Found catalog tokens earlier

theorem IsFirst.unique {catalog : Catalog} {tokens : List Token} {s s' : Step}
    (first : IsFirst catalog tokens s) (first' : IsFirst catalog tokens s') : s = s' := by
  rcases Nat.lt_trichotomy s.rank s'.rank with less | same | less
  · exact absurd first.1 (first'.2 s less)
  · exact Step.rank_injective same
  · exact absurd first'.1 (first.2 s' less)

def detectBy (catalog : Catalog) (tokens : List Token) : Step → Option Detection
  | .packageName => detectPackage catalog tokens
  | .frameworkKey => detectKey catalog tokens
  | .aliasName => detectPhrase catalog tokens (normalize tokens) <|> detectAlias catalog tokens
  | .apiPattern => detectApi catalog tokens
  | .fuzzy => detectFuzzy catalog tokens
  | .dynamic => detectDynamic tokens

section
variable {catalog : Catalog} {tokens : List Token} {step : Step}

theorem findSome?_cons_or {α β : Type} (f : α → Option β) (a : α) (l : List α) :
    (a :: l).findSome? f = (f a).or (l.findSome? f) := by
  rw [List.findSome?_cons]
  cases f a <;> rfl

theorem detect_eq_findSome? : detect catalog tokens (normalize tokens) =
    Step.precedence.findSome? (detectBy catalog tokens) := by
  simp only [detect, Step.precedence, findSome?_cons_or, List.findSome?_nil, detectBy,
    Option.orElse_eq_orElse, Option.orElse_eq_or, Option.or_assoc, Option.or_none]

section
variable (keyed : catalog.Keyed) (lowered : ∀ t ∈ tokens, t.lower = Text.lower t.written)
include keyed lowered

theorem answers_detectBy : (step : Step) → step ≠ .dynamic →
    Answers catalog step (Evidence catalog tokens · step) (detectBy catalog tokens step)
  | .packageName, _ => answers_package lowered
  | .frameworkKey, _ => answers_key
  | .aliasName, _ => answers_phrase.or answers_alias
  | .apiPattern, _ => answers_api keyed
  | .fuzzy, _ => answers_fuzzy
  | .dynamic, known => absurd rfl known

theorem detectBy_eq_some {d : Detection} (found : detectBy catalog tokens step = some d) :
    d.target.step = step ∧ Found catalog tokens step := by
  by_cases known : step = .dynamic
  · subst known
    exact detectDynamic_eq_some found
  · obtain ⟨same, f, member, shown, -⟩ := (answers_detectBy keyed lowered step known).sound d found
    exact ⟨same, (found_iff known).mpr ⟨f, member, shown⟩⟩

theorem detectBy_eq_none (nothing : detectBy catalog tokens step = none) :
    ¬ Found catalog tokens step := by
  by_cases known : step = .dynamic
  · subst known
    exact detectDynamic_eq_none nothing
  · rw [found_iff known]
    rintro ⟨f, member, shown⟩
    exact (answers_detectBy keyed lowered step known).complete nothing f member shown

theorem detect_eq_some {d : Detection}
    (found : detect catalog tokens (normalize tokens) = some d) :
    detectBy catalog tokens d.target.step = some d ∧ IsFirst catalog tokens d.target.step := by
  rw [detect_eq_findSome?] at found
  obtain ⟨before, step, after, split, found, nothing⟩ := List.findSome?_eq_some_iff.mp found
  obtain ⟨rfl, something⟩ := detectBy_eq_some keyed lowered found
  refine ⟨found, something, fun earlier less => ?_⟩
  -- The steps are listed by rank, so what comes earlier stands before.
  have sorted := Step.pairwise_precedence
  have listed := earlier.mem_precedence
  rw [split] at sorted listed
  obtain ⟨-, behind, -⟩ := List.pairwise_append.mp sorted
  rcases List.mem_append.mp listed with ahead | here
  · exact detectBy_eq_none keyed lowered (nothing earlier ahead)
  · rcases List.mem_cons.mp here with rfl | later
    · exact absurd less (Nat.lt_irrefl _)
    · exact absurd less (Nat.lt_asymm ((List.pairwise_cons.mp behind).1 earlier later))

theorem detect_eq_none (nothing : detect catalog tokens (normalize tokens) = none) (step : Step) :
    ¬ Found catalog tokens step := by
  rw [detect_eq_findSome?] at nothing
  have skipped := List.findSome?_eq_none_iff.mp nothing step step.mem_precedence
  exact detectBy_eq_none keyed lowered skipped

end
end

/-- A token is a package of an entry, or its key with or without the hyphens. -/
def Token.Names (t : Token) (f : Framework) : Prop :=
  (∃ p ∈ f.packages, Text.lower p = Text.lower t.written) ∨ t.lower = f.key ∨
    t.lower = f.compactKey

instance (t : Token) (f : Framework) : Decidable (t.Names f) :=
  inferInstanceAs (Decidable (_ ∨ _ ∨ _))

theorem found_of_names {catalog : Catalog} {tokens : List Token} {f : Framework}
    (member : f ∈ catalog.entries) (named : ∃ t ∈ tokens, t.Names f) :
    Found catalog tokens .packageName ∨ Found catalog tokens .frameworkKey := by
  obtain ⟨t, token, package | key⟩ := named
  · exact .inl ⟨f, member, t, token, package⟩
  · exact .inr ⟨f, member, t, token, key⟩

theorem Evidence.names {catalog : Catalog} {tokens : List Token} {f : Framework} {step : Step}
    (early : step = .packageName ∨ step = .frameworkKey)
    (shown : Evidence catalog tokens f step) : ∃ t ∈ tokens, t.Names f := by
  rcases early with rfl | rfl
  · obtain ⟨t, token, package⟩ := shown
    exact ⟨t, token, .inl package⟩
  · obtain ⟨t, token, key⟩ := shown
    exact ⟨t, token, .inr key⟩

section
variable {catalog : Catalog} (keyed : catalog.Keyed) {query : Text}
include keyed

theorem isFirst_of_target {target : Target} (found : (parse catalog query).target = some target) :
    IsFirst catalog (tokens query) target.step := by
  obtain ⟨d, detected, rfl⟩ := Option.map_eq_some_iff.mp found
  exact (detect_eq_some keyed (fun _ => Token.lower_eq) detected).2

theorem evidence_of_target {target : Target} (found : (parse catalog query).target = some target)
    (known : target.step ≠ .dynamic) : ∃ f ∈ catalog.entries,
      Evidence catalog (tokens query) f target.step ∧ target.framework = f.key := by
  obtain ⟨d, detected, rfl⟩ := Option.map_eq_some_iff.mp found
  have lowered : ∀ t ∈ tokens query, t.lower = Text.lower t.written := fun _ => Token.lower_eq
  have byStep := (detect_eq_some keyed lowered detected).1
  exact ((answers_detectBy keyed lowered d.target.step known).sound d byStep).2

theorem not_found_of_target (nothing : (parse catalog query).target = none) (step : Step) :
    ¬ Found catalog (tokens query) step :=
  detect_eq_none keyed (fun _ => Token.lower_eq) (Option.map_eq_none_iff.mp nothing) step

/-- What the query names goes before everything else. -/
theorem target_of_names {f : Framework} (member : f ∈ catalog.entries)
    (named : ∃ t ∈ tokens query, t.Names f)
    (alone : ∀ g ∈ catalog.entries, g ≠ f → ∀ t ∈ tokens query, ¬ t.Names g) :
    ∃ target, (parse catalog query).target = some target ∧ target.framework = f.key ∧
      (target.step = .packageName ∨ target.step = .frameworkKey) := by
  have something := found_of_names member named
  cases found : (parse catalog query).target with
  | none =>
      have nothing := not_found_of_target keyed found
      exact absurd something (not_or_intro (nothing _) (nothing _))
  | some target =>
      obtain ⟨-, earliest⟩ := isFirst_of_target keyed found
      have early : target.step = .packageName ∨ target.step = .frameworkKey := by
        refine Step.eq_of_rank_le (Nat.le_of_not_lt fun after => ?_)
        rcases something with package | key
        · exact earliest .packageName (Nat.lt_of_succ_lt after) package
        · exact earliest .frameworkKey after key
      have known : target.step ≠ .dynamic := by
        intro last
        rw [last] at early
        exact early.elim nofun nofun
      obtain ⟨g, member', shown, key⟩ := evidence_of_target keyed found known
      obtain ⟨t, token, names⟩ := shown.names early
      obtain rfl : g = f := by
        by_contra other
        exact alone g member' other t token names
      exact ⟨target, rfl, key, early⟩

end

namespace Qwik

def entry : Framework :=
  Catalog.entry "qwik" ["@builder.io/qwik"] ["qwikjs"] ["usesignal", "component$"]

def catalog : Catalog := Catalog.builtin.extend [entry]

end Qwik
end ApiReference.Query
