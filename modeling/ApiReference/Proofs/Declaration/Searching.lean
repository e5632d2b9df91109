import ApiReference.Proofs.Declaration.Ranking
import ApiReference.Proofs.Text.LowerForms
import ApiReference.Proofs.Text.Trimming
import Mathlib.Data.List.Perm.Subperm

/-!
# What a query finds

A query finds the definitions in whose name or signature each of its terms occurs, best first, and a
limit cuts them off. Which ones it finds depends on the set of its terms only, and more terms find
no more; without a term it finds nothing. Main statement: `search_answers`.
-/

namespace ApiReference.Declaration

def terms (query : Text) : List Text := (Text.words query).map Text.lower

/-- Whether every term occurs in the name or the signature of a definition, in any letter case. -/
def Contains (d : Definition) (terms : List Text) : Prop :=
  ∀ term ∈ terms, term <:+: Text.lower d.name ∨ term <:+: Text.lower d.signature

theorem hasAllTerms_iff {d : Definition} {terms : List Text} :
    hasAllTerms terms d = true ↔ Contains d terms := by
  simp only [hasAllTerms, List.all_eq_true, Bool.or_eq_true, Text.occursIn_iff, Contains]

instance (d : Definition) (terms : List Text) : Decidable (Contains d terms) :=
  decidable_of_iff _ hasAllTerms_iff

/-- What a query is compared with names as. -/
def phrase (query : Text) : Text := Text.lower (Text.trim query)

theorem words_phrase (query : Text) : Text.words (phrase query) = terms query := by
  rw [phrase, Text.words_lower, Text.words_trim, terms]

theorem terms_asciiLower (query : Text) : terms (Text.asciiLower query) = terms query := by
  rw [terms, terms, ← Text.words_lower, ← Text.words_lower, Text.lower_asciiLower]

theorem mem_terms_congr {query other : Text}
    (same : ∀ w, w ∈ Text.words (Text.asciiLower other) ↔ w ∈ Text.words (Text.asciiLower query))
    (term : Text) : term ∈ terms other ↔ term ∈ terms query := by
  rw [← terms_asciiLower query, ← terms_asciiLower other]
  simp only [terms, List.mem_map, same]

section
variable (definitions : List Definition) (query : Text)

/-- The definitions that contain all terms of a query, in order of declaration. -/
def matching : List Definition := definitions.filter fun d => Contains d (terms query)

def hitOf (d : Definition) : Hit := ⟨d, score d (phrase query)⟩

theorem map_hitOf (ds : List Definition) : (ds.map (hitOf query)).map Hit.definition = ds := by
  rw [List.map_map]
  exact List.map_id ds

theorem ranking_eq : ranking definitions query =
    if terms query = [] then []
    else rank Hit.score ((matching definitions query).map (hitOf query)) := by
  have found : definitions.filter (hasAllTerms (terms query)) = matching definitions query :=
    List.filter_congr fun d _ => by
      rw [Bool.eq_iff_iff, hasAllTerms_iff, decide_eq_true_iff]
  have words : Text.words (Text.lower (Text.trim query)) = terms query := words_phrase query
  simp only [ranking, words, found, List.isEmpty_iff]
  rfl

theorem ranking_perm : (ranking definitions query).Perm
    (if terms query = [] then [] else (matching definitions query).map (hitOf query)) := by
  rw [ranking_eq]
  split
  · exact .refl []
  · exact rank_perm Hit.score _

theorem length_ranking_le : (ranking definitions query).length ≤ definitions.length := by
  rw [(ranking_perm definitions query).length_eq]
  split
  · exact Nat.zero_le _
  · rw [List.length_map]
    exact List.length_filter_le _ definitions

/-- A limit as large as the number of definitions cuts nothing off. -/
theorem search_length : search definitions query definitions.length = ranking definitions query :=
  List.take_of_length_le (length_ranking_le definitions query)

end

/-- Whether hits are all that a query finds, best first: each definition that contains the terms as
often as it is declared, with its score, and those of one score in order of declaration. -/
structure Answers (definitions : List Definition) (query : Text) (hits : List Hit) : Prop where
  complete : (hits.map Hit.definition).Perm (definitions.filter fun d => Contains d (terms query))
  scored : ∀ hit ∈ hits, hit.score = score hit.definition (phrase query)
  descending : hits.Pairwise fun a b => b.score ≤ a.score
  stable : ∀ points, (hits.filter fun hit => hit.score = points).map Hit.definition =
    definitions.filter fun d => Contains d (terms query) ∧ score d (phrase query) = points

section
variable {definitions : List Definition} {query : Text}

theorem answers_ranking (some : terms query ≠ []) :
    Answers definitions query (ranking definitions query) := by
  have listed := ranking_perm definitions query
  have ranked := ranking_eq definitions query
  rw [if_neg some] at listed ranked
  refine ⟨?_, ?_, ranked_ranking definitions query, fun points => ?_⟩
  · have definitionsOf := listed.map Hit.definition
    rwa [map_hitOf] at definitionsOf
  · intro hit member
    obtain ⟨d, -, rfl⟩ := List.mem_map.1 (listed.mem_iff.1 member)
    rfl
  · -- Hits of one score are ranked as they stand.
    have level (hits : List Hit) :
        Ranked Hit.score (hits.filter fun hit => hit.score = points) := by
      refine List.pairwise_of_forall_mem_list fun a ha b hb => ?_
      have first := of_decide_eq_true (List.mem_filter.1 ha).2
      have second := of_decide_eq_true (List.mem_filter.1 hb).2
      exact Int.le_of_eq (second.trans first.symm)
    rw [ranked, filter_rank, rank_of_ranked Hit.score (level _), List.filter_map, map_hitOf,
      matching, List.filter_filter]
    refine List.filter_congr fun d _ => ?_
    rw [Bool.decide_and, Bool.and_comm]
    rfl

end

/-- The definitions that a query finds, best first. -/
def found (definitions : List Definition) (query : Text) (limit : Nat) : List Definition :=
  (search definitions query limit).map Hit.definition

/-- The definitions that a query finds if nothing is cut off. -/
def selected (definitions : List Definition) (query : Text) : List Definition :=
  found definitions query definitions.length

section
variable {definitions : List Definition} {query other : Text}

theorem selected_perm (definitions : List Definition) (query : Text) :
    (selected definitions query).Perm
      (if terms query = [] then [] else matching definitions query) := by
  have listed := (ranking_perm definitions query).map Hit.definition
  rw [selected, found, search_length]
  split at listed
  · next nothing => rwa [if_pos nothing]
  · next some => rwa [if_neg some, ← map_hitOf query (matching definitions query)]

theorem Contains.mono {d : Definition} (more : terms query ⊆ terms other)
    (all : Contains d (terms other)) : Contains d (terms query) :=
  fun term member => all term (more member)

theorem selected_subperm (some : terms query ≠ []) (more : terms query ⊆ terms other) :
    (selected definitions other).Subperm (selected definitions query) := by
  have fewer : (matching definitions other).Sublist (matching definitions query) :=
    List.monotone_filter_right definitions fun d all =>
      decide_eq_true (Contains.mono more (of_decide_eq_true all))
  have listed : terms other ≠ [] := fun nothing => some (List.eq_nil_of_subset_nil (nothing ▸ more))
  have mine := selected_perm definitions query
  have others := selected_perm definitions other
  rw [if_neg some] at mine
  rw [if_neg listed] at others
  exact others.subperm.trans (fewer.subperm.trans mine.symm.subperm)

theorem selected_congr (same : ∀ term, term ∈ terms other ↔ term ∈ terms query) :
    (selected definitions other).Perm (selected definitions query) := by
  have alike : terms other = [] ↔ terms query = [] := by
    simp only [List.eq_nil_iff_forall_not_mem, same]
  by_cases nothing : terms query = []
  · have mine := selected_perm definitions query
    have others := selected_perm definitions other
    rw [if_pos nothing] at mine
    rw [if_pos (alike.2 nothing)] at others
    exact others.trans mine.symm
  · exact (selected_subperm nothing fun term => (same term).2).antisymm
      (selected_subperm (mt alike.1 nothing) fun term => (same term).1)

/-- Whether a definition differs from another one only in being deprecated and in its place. -/
def Deprecates (new old : Definition) : Prop :=
  new.deprecated = false ∧
  ∃ message location,
    old = { new with deprecated := true, deprecationMessage := message, location := location }

theorem Deprecates.score_lt {new old : Definition} (deprecates : Deprecates new old)
    (query : Text) : score old query < score new query := by
  obtain ⟨current, message, location, rfl⟩ := deprecates
  simp only [score, current, if_true, Bool.false_eq_true, if_false]
  omega

theorem score_of_mem_search {limit : Nat} {hit : Hit}
    (member : hit ∈ search definitions query limit) :
    hit.score = score hit.definition (phrase query) := by
  have listed : hit ∈ ranking definitions query := List.mem_of_mem_take member
  by_cases nothing : terms query = []
  · rw [ranking_eq, if_pos nothing] at listed
    cases listed
  · exact (answers_ranking nothing).scored hit listed

theorem ranked_search (limit : Nat) : Ranked Hit.score (search definitions query limit) :=
  (ranked_ranking definitions query).sublist (List.take_sublist limit _)

theorem Deprecates.lt {new old : Definition} (deprecates : Deprecates new old) {limit i j : Nat}
    (newAt : (found definitions query limit)[i]? = some new)
    (oldAt : (found definitions query limit)[j]? = some old) : i < j := by
  rw [found, List.getElem?_map, Option.map_eq_some_iff] at newAt oldAt
  obtain ⟨newHit, newAt, isNew⟩ := newAt
  obtain ⟨oldHit, oldAt, isOld⟩ := oldAt
  have higher : oldHit.score < newHit.score := by
    rw [score_of_mem_search (List.mem_of_getElem? newAt),
      score_of_mem_search (List.mem_of_getElem? oldAt), isNew, isOld]
    exact deprecates.score_lt (phrase query)
  obtain ⟨newInside, rfl⟩ := List.getElem?_eq_some_iff.1 newAt
  obtain ⟨oldInside, rfl⟩ := List.getElem?_eq_some_iff.1 oldAt
  rcases Nat.lt_trichotomy i j with before | rfl | behind
  · exact before
  · exact absurd higher (Int.lt_irrefl _)
  · have lower := List.pairwise_iff_getElem.1 (ranked_search limit) j i oldInside newInside behind
    exact absurd higher (Int.not_lt.2 lower)

end

/-- A query with a term finds exactly what contains its terms, best first, cut off at the limit, and
a query without one finds nothing. What is found depends on the set of terms alone, in which order,
repetition, spacing and the case of ASCII letters do not show, and more terms find no more. A
deprecated definition comes after the same one that is not deprecated. -/
theorem search_answers (definitions : List Definition) (query : Text) :
    (terms query ≠ [] →
      Answers definitions query (search definitions query definitions.length)) ∧
    (terms query = [] → selected definitions query = []) ∧
    (∀ limit, search definitions query limit =
      (search definitions query definitions.length).take limit) ∧
    (∀ m n, m ≤ n → search definitions query m = (search definitions query n).take m) ∧
    (∀ other, (∀ term, term ∈ terms other ↔ term ∈ terms query) →
      (selected definitions other).Perm (selected definitions query)) ∧
    (∀ other, (∀ w, w ∈ Text.words (Text.asciiLower other) ↔
        w ∈ Text.words (Text.asciiLower query)) →
      ∀ term, term ∈ terms other ↔ term ∈ terms query) ∧
    (terms query ≠ [] → ∀ other, terms query ⊆ terms other →
      (selected definitions other).Subperm (selected definitions query)) ∧
    ∀ new old, Deprecates new old → ∀ limit i j : Nat,
      (found definitions query limit)[i]? = some new →
      (found definitions query limit)[j]? = some old → i < j := by
  refine ⟨fun some => ?_, fun nothing => ?_, fun limit => ?_, fun m n fewer => ?_,
    fun other => selected_congr, fun other => mem_terms_congr,
    fun some other => selected_subperm some, fun new old deprecates limit i j => deprecates.lt⟩
  · rw [search_length]
    exact answers_ranking some
  · have none := selected_perm definitions query
    rw [if_pos nothing] at none
    exact none.eq_nil
  · rw [search_length]
    rfl
  · rw [search, search, List.take_take, Nat.min_eq_left fewer]

/-- A definition of which nothing but its name is known. -/
def lone : Definition := .bare "f".toList .function "function f(x: number): void".toList ⟨1, 9⟩

/-- A blank query has no terms that a definition could lack, and yet it does not find it. -/
theorem search_blank_lone : Contains lone (terms "  ".toList) ∧
    ¬ ∃ hit ∈ search [lone] "  ".toList 1, hit.definition = lone := by
  decide

end ApiReference.Declaration
