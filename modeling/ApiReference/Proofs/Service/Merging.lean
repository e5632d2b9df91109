import ApiReference.Proofs.Declaration.Ranking
import ApiReference.Proofs.Service.Reading
import ApiReference.Service.Search
import ApiReference.Service.World
import Mathlib.Algebra.GroupWithZero.Nat

/-!
# Merged searches

A search cuts the results of each framework before it merges them. Main statement: the response is
nevertheless the beginning of the stable ranking of all results of all frameworks.
-/

namespace ApiReference
open ApiReference.Declaration (Hit Ranked rank ranked_ranking rank_eq_mergeSort scoresAtLeast)

/-- All results of a framework with its declarations, best first. -/
def allResults (query : Text) (found : Text × ResolvedTypes) : List SearchResult :=
  (found.2.file.hits query).map (SearchResult.ofHit found.1 found.2)

theorem ranked_allResults (query : Text) (found : Text × ResolvedTypes) :
    Ranked SearchResult.score (allResults query found) :=
  List.pairwise_map.mpr (ranked_ranking found.2.file.declarations.definitions query)

/-- A query without words has no results. -/
theorem allResults_nil : allResults [] = fun _ => [] := rfl

variable {σ : Type}

namespace Service

/-- The frameworks that can be searched, each with its declarations, in the given order. -/
def searchable (s : Service σ) : List Text → σ → List (Text × ResolvedTypes) × σ
  | [], outside => ([], outside)
  | framework :: frameworks, outside =>
    let (types, outside) := s.typesToSearch framework outside
    let (rest, outside) := s.searchable frameworks outside
    ((types.map fun types => (framework, types)).toList ++ rest, outside)

theorem searchable_cons (s : Service σ) (framework : Text) (frameworks : List Text) (outside : σ) :
    s.searchable (framework :: frameworks) outside =
      (((s.typesToSearch framework outside).1.map fun types => (framework, types)).toList ++
        (s.searchable frameworks (s.typesToSearch framework outside).2).1,
        (s.searchable frameworks (s.typesToSearch framework outside).2).2) := rfl

theorem searchFrameworks_cons (s : Service σ) (query : Text) (limit : Nat) (framework : Text)
    (frameworks : List Text) (session : Session σ) :
    s.searchFrameworks query limit (framework :: frameworks) session =
      let first := s.searchFramework query limit framework session
      let rest := s.searchFrameworks query limit frameworks first.2
      ((first.1.map fun results => (framework, results)).toList ++ rest.1, rest.2) := rfl

/-- The search of a framework gives the first of all its results. -/
theorem searchFramework_fst (s : Service σ) (query : Text) (limit : Nat) (framework : Text)
    (session : Session σ) : (s.searchFramework query limit framework session).1 =
      (s.typesToSearch framework session.outside).1.map fun types =>
        (allResults query (framework, types)).take limit := by
  unfold searchFramework
  rcases s.typesToSearch framework session.outside with ⟨types, outside⟩
  cases types with
  | none => rfl
  | some types =>
      change some (List.map _ (Session.search _ types.file query limit).1) = some _
      rw [Session.search_fst, List.map_take]
      rfl

theorem searchFramework_outside (s : Service σ) (query : Text) (limit : Nat) (framework : Text)
    (session : Session σ) : (s.searchFramework query limit framework session).2.outside =
      (s.typesToSearch framework session.outside).2 := by
  unfold searchFramework
  rcases s.typesToSearch framework session.outside with ⟨types, outside⟩
  cases types <;> rfl

/-- The searches of frameworks give the first of all results of each one that can be searched. -/
theorem searchFrameworks_fst (s : Service σ) (query : Text) (limit : Nat) (frameworks : List Text)
    (session : Session σ) : (s.searchFrameworks query limit frameworks session).1 =
      (s.searchable frameworks session.outside).1.map fun found =>
        (found.1, (allResults query found).take limit) := by
  induction frameworks generalizing session with
  | nil => rfl
  | cons framework frameworks ih =>
      have rest := ih (s.searchFramework query limit framework session).2
      rw [searchFramework_outside] at rest
      rw [searchFrameworks_cons, searchable_cons]
      simp only
      rw [searchFramework_fst, rest, List.map_append]
      cases (s.typesToSearch framework session.outside).1 <;> rfl

/-- The first results of several lists of results, each cut before. -/
theorem mergeResults_results (query : Text) (limit : Nat) (found : List (Text × ResolvedTypes)) :
    (mergeResults query limit (found.map fun f => (f.1, (allResults query f).take limit))).results =
      ((found.flatMap (allResults query)).mergeSort
        (scoresAtLeast SearchResult.score)).take limit := by
  rw [← rank_eq_mergeSort, Declaration.take_rank_flatMap SearchResult.score _ found
    fun f _ => ranked_allResults query f, mergeResults, List.flatMap_map]

theorem mergeResults_totalFound (query : Text) (limit : Nat)
    (found : List (Text × ResolvedTypes)) :
    (mergeResults query limit
      (found.map fun f => (f.1, (allResults query f).take limit))).totalFound =
      (found.map fun f => min limit (allResults query f).length).sum := by
  simp only [mergeResults, List.flatMap_map, List.length_flatMap, List.length_take]

theorem search_fst_of_blank (s : Service σ) (request : SearchRequest) (session : Session σ)
    (blank : Text.trim request.query = []) : (s.search request session).1 = { query := [] } := by
  unfold search
  simp only [blank]
  rfl

/-- A search for words merges the first results of each framework that can be searched. -/
theorem search_fst_of_words (s : Service σ) (request : SearchRequest) (session : Session σ)
    (words : Text.trim request.query ≠ []) :
    let query := Text.trim request.query
    let limit := request.limitToUse s.settings.search
    (s.search request session).1 = mergeResults query limit
      ((s.searchable (request.frameworksToSearch s.settings.search) session.outside).1.map
        fun f => (f.1, (allResults query f).take limit)) := by
  intro query limit
  rw [← searchFrameworks_fst]
  unfold search
  simp only [List.isEmpty_iff]
  rw [if_neg words]

/-- A search gives the beginning of the stable ranking of all results of all frameworks that can be
searched, in the order of the request: the cut before the merge loses none of them. -/
theorem search_merges (s : Service σ) (request : SearchRequest) (session : Session σ) :
    let query := Text.trim request.query
    let limit := request.limitToUse s.settings.search
    let found :=
      (s.searchable (request.frameworksToSearch s.settings.search) session.outside).1
    let response := (s.search request session).1
    response.results = ((found.flatMap (allResults query)).mergeSort
      (scoresAtLeast SearchResult.score)).take limit ∧
    response.results.length = min limit (found.map fun f => (allResults query f).length).sum ∧
    response.totalFound = (found.map fun f => min limit (allResults query f).length).sum := by
  intro query limit found response
  have merged : response.results = ((found.flatMap (allResults query)).mergeSort
      (scoresAtLeast SearchResult.score)).take limit ∧
      response.totalFound = (found.map fun f => min limit (allResults query f).length).sum := by
    by_cases blank : query = []
    · have empty : response = { query := [] } := s.search_fst_of_blank request session blank
      have nothing : found.flatMap (allResults query) = [] :=
        List.flatMap_eq_nil_iff.mpr fun f _ => by rw [blank, allResults_nil]
      refine ⟨by rw [empty, nothing, List.mergeSort_nil, List.take_nil], ?_⟩
      rw [empty, blank, allResults_nil]
      simp [List.map_const']
    · have full : response = mergeResults query limit
          (found.map fun f => (f.1, (allResults query f).take limit)) :=
        s.search_fst_of_words request session blank
      rw [full]
      exact ⟨mergeResults_results query limit found, mergeResults_totalFound query limit found⟩
  refine ⟨merged.1, ?_, merged.2⟩
  rw [merged.1, List.length_take, List.length_mergeSort, List.length_flatMap]

end Service

/-! Two frameworks with results of the same score on both sides of the limit. -/

namespace Tied

def world : World :=
  { versions := [("react".toList, ["19.0.0".toList]), ("vue".toList, ["3.5.0".toList])]
    types := [("react".toList, "function useA(): 0; function use(): 0; function useB(): 0;".toList),
      ("vue".toList, "function useC(): 0;".toList)] }

def service : Service Unit := ⟨{}, world.sources⟩

def request : SearchRequest :=
  { query := "use".toList, frameworks := some ["react".toList, "vue".toList], limit := some 2 }

/-- Of three results that score alike the first one is given, though the framework that it is from has
more results than are asked for. -/
theorem search_merges_tied :
    let found := (service.searchable ["react".toList, "vue".toList] ()).1
    let response := (service.search request (Session.start {} ())).1
    found.map (fun f => (allResults "use".toList f).map fun r => (r.name, r.score)) =
      [[("use".toList, 115), ("useA".toList, 95), ("useB".toList, 95)], [("useC".toList, 95)]] ∧
    response.results = ((found.flatMap (allResults "use".toList)).mergeSort
      (scoresAtLeast SearchResult.score)).take 2 ∧
    response.results.map SearchResult.name = ["use".toList, "useA".toList] ∧
    response.totalFound = 3 := by
  intro found response
  have query : Text.trim request.query = "use".toList := by decide
  have frameworks : request.frameworksToSearch service.settings.search =
      ["react".toList, "vue".toList] := by decide
  have merged := service.search_merges request (Session.start {} ())
  rw [query, frameworks] at merged
  exact ⟨by decide +kernel, merged.1, by decide +kernel, merged.2.2.trans (by decide +kernel)⟩

end Tied
end ApiReference
