import ApiReference.Proofs.Service.Isolation
import ApiReference.Proofs.Text.BlankLines
import ApiReference.Service.Context

/-!
# Blank entries of a request

A framework or version of nothing but white space counts as not given, and so does a limit of zero.
Blank frameworks of a search are passed over, but a list of blank ones alone is not taken for no list:
nothing is searched then, not even the configured frameworks. Main statement: `blank_absent`.
-/

namespace ApiReference
open ApiReference.Text (isBlankLine)

theorem isEmpty_trim (t : Text) : (Text.trim t).isEmpty = isBlankLine t := by
  rw [Bool.eq_iff_iff, List.isEmpty_iff, Text.trim_eq_nil_iff, Text.isBlankLine_iff]

theorem given?_of_isBlankLine {t : Text} (blank : isBlankLine t = true) : given? (some t) = none := by
  rw [given?, Option.map_some, Option.filter_some, isEmpty_trim, blank]
  rfl

/-- The entries of a list that are not blank, if there are any. -/
def stated? (ts : List Text) : Option (List Text) :=
  let stated := ts.filter fun t => !isBlankLine t
  if stated = [] then none else some stated

theorem givenTexts_stated (ts : List Text) :
    givenTexts (ts.filter fun t => !isBlankLine t) = givenTexts ts := by
  simp only [givenTexts, List.filter_map, List.filter_filter, Function.comp_def, isEmpty_trim,
    Bool.and_self]

theorem givenTexts_eq_nil {ts : List Text} (blank : ∀ t ∈ ts, isBlankLine t = true) :
    givenTexts ts = [] := by
  have nothing : ts.filter (fun t => !isBlankLine t) = [] :=
    List.filter_eq_nil_iff.2 fun t member => by rw [blank t member]; exact Bool.false_ne_true
  rw [← givenTexts_stated, nothing]
  rfl

namespace SearchRequest
variable (request : SearchRequest) (settings : SearchSettings) {ts : List Text}

theorem frameworksToSearch_some (listed : ts ≠ []) :
    frameworksToSearch { request with frameworks := some ts } settings = givenTexts ts := by
  rw [frameworksToSearch, Option.filter_some, List.isEmpty_eq_false_iff.2 listed]
  rfl

/-- A list with an entry that is not blank stands for the entries that are not. -/
theorem frameworksToSearch_stated (stated : ts = [] ∨ ∃ t ∈ ts, isBlankLine t = false) :
    frameworksToSearch { request with frameworks := some ts } settings =
      frameworksToSearch { request with frameworks := stated? ts } settings := by
  rcases stated with rfl | ⟨t, member, visible⟩
  · rfl
  · have some : ts.filter (fun t => !isBlankLine t) ≠ [] :=
      List.ne_nil_of_mem (List.mem_filter.2 ⟨member, by rw [visible]; rfl⟩)
    rw [frameworksToSearch_some request settings (List.ne_nil_of_mem member), stated?, if_neg some,
      frameworksToSearch_some request settings some, givenTexts_stated]

end SearchRequest

namespace Service
variable {σ : Type} (s : Service σ) (session : Session σ)

theorem search_congr {r r' : SearchRequest} (query : r.query = r'.query)
    (frameworks : r.frameworksToSearch s.settings.search = r'.frameworksToSearch s.settings.search)
    (limit : r.limitToUse s.settings.search = r'.limitToUse s.settings.search) :
    s.search r session = s.search r' session := by
  simp only [search, query, frameworks, limit]

theorem mergeResults_nil (query : Text) (limit : Nat) :
    mergeResults query limit [] = { query := query } := by
  rw [mergeResults, List.flatMap_nil, Declaration.rank_eq_mergeSort, List.mergeSort_nil,
    List.take_nil]
  rfl

/-- Where no framework is to be searched, nothing is asked and nothing found. -/
theorem search_of_no_frameworks {request : SearchRequest}
    (unlisted : request.frameworksToSearch s.settings.search = []) :
    s.search request session = ({ query := Text.trim request.query }, session) := by
  simp only [search, unlisted, searchFrameworks, mergeResults_nil, ite_self]

theorem search_fst_of_none_searched {request : SearchRequest}
    (unsearched : (s.search request session).1.frameworksSearched = []) :
    (s.search request session).1 = { query := Text.trim request.query } := by
  by_cases blank : Text.trim request.query = []
  · rw [s.search_fst_of_blank request session blank, blank]
  · rw [s.search_fst_of_words request session blank] at unsearched ⊢
    rw [List.map_eq_nil_iff.1 unsearched, mergeResults_nil]

/-- A blank framework or version of a question counts as none, and a limit of zero as no limit. Of the
frameworks of a search those that are not blank count, if there are any; no entry at all is no list.
Where all of some entries are blank, nothing is asked and nothing found: this is what no list would
give exactly if the configured frameworks cannot be searched. -/
theorem blank_absent :
    (∀ (request : ContextRequest) (t : Text), isBlankLine t = true →
      s.context { request with framework := some t } session =
        s.context { request with framework := none } session ∧
      s.context { request with version := some t } session =
        s.context { request with version := none } session) ∧
    (∀ request : SearchRequest, s.search { request with limit := some 0 } session =
      s.search { request with limit := none } session) ∧
    ∀ (request : SearchRequest) (ts : List Text),
      ((ts = [] ∨ ∃ t ∈ ts, isBlankLine t = false) →
        s.search { request with frameworks := some ts } session =
          s.search { request with frameworks := stated? ts } session) ∧
      (ts ≠ [] → (∀ t ∈ ts, isBlankLine t = true) →
        s.search { request with frameworks := some ts } session =
          ({ query := Text.trim request.query }, session) ∧
        ((s.search { request with frameworks := some ts } session).1 =
            (s.search { request with frameworks := none } session).1 ↔
          (s.search { request with frameworks := none } session).1.frameworksSearched = [])) := by
  refine ⟨fun request t blank => ⟨?_, ?_⟩, fun request => rfl, fun request ts => ⟨?_, ?_⟩⟩
  · simp only [context, ContextRequest.subject?, given?_of_isBlankLine blank]
    rfl
  · have version (parsed : Query.Parsed) :
        ContextRequest.version? { request with version := some t } parsed =
          ContextRequest.version? { request with version := none } parsed := by
      rw [ContextRequest.version?, given?_of_isBlankLine blank]
      rfl
    simp only [context, contextOf, version]
    rfl
  · intro stated
    exact s.search_congr session rfl
      (request.frameworksToSearch_stated s.settings.search stated) rfl
  · intro listed blank
    have nothing : s.search { request with frameworks := some ts } session =
        ({ query := Text.trim request.query }, session) := by
      refine s.search_of_no_frameworks session ?_
      rw [request.frameworksToSearch_some s.settings.search listed, givenTexts_eq_nil blank]
    refine ⟨nothing, ?_⟩
    rw [nothing]
    constructor
    · intro same
      rw [← same]
    · exact fun unsearched => (s.search_fst_of_none_searched session unsearched).symm

end Service

namespace Trio

/-- Among others a blank entry is passed over; by itself it keeps the search from the frameworks that
are configured, which could be searched. -/
theorem blank_absent_trio :
    (service declaration).search
        { query := "use".toList, frameworks := some [" ".toList, "react".toList] } session =
      (service declaration).search
        { query := "use".toList, frameworks := some ["react".toList] } session ∧
    (service declaration).search { query := "use".toList, frameworks := some [" ".toList] } session =
      ({ query := "use".toList }, session) ∧
    (service declaration).context
        { query := "react useState".toList, framework := some "\t".toList } session =
      (service declaration).context { query := "react useState".toList } session := by
  obtain ⟨context, -, search⟩ := (service declaration).blank_absent session
  refine ⟨?_, ?_, ?_⟩
  · refine (search { query := "use".toList } [" ".toList, "react".toList]).1 (.inr ?_)
    exact ⟨"react".toList, by simp, by decide⟩
  · exact ((search { query := "use".toList } [" ".toList]).2 (List.cons_ne_nil _ _) (by decide)).1
  · exact (context { query := "react useState".toList } "\t".toList (by decide)).1

/-- A list of blank entries alone is not as good as no list. -/
theorem blank_unsearched :
    stated? [" ".toList] = none ∧
    ((service declaration).search { query := "use".toList, frameworks := some [" ".toList] }
      session).1.frameworksSearched = [] ∧
    ((service declaration).search { query := "use".toList, frameworks := stated? [" ".toList] }
      session).1.frameworksSearched = ["react".toList, "vue".toList] := by
  decide +kernel

end Trio
end ApiReference
