import ApiReference.Proofs.Service.Isolation
import ApiReference.Proofs.Service.Order

/-!
# Searches side by side

The frameworks of a request are searched side by side: their questions may come in any order that
keeps the order of each framework. The response merges the results of all frameworks that can be
searched, and where the same questions are answered as in turn, it is the response of searches in
turn. Main statements: `JoinedSearch.merges`, `Service.search_joined`.
-/

namespace ApiReference
open ApiReference.Declaration (scoresAtLeast)

variable {σ : Type}

/-- What the search of a package asks, and the declarations that it comes to, if any. -/
inductive SearchLookup (package : Text) : List Exchange → Option ResolvedTypes → Prop
  | lookupFailed (e) : SearchLookup package [.version package none (.error e)] none
  | unpublished : SearchLookup package [.version package none (.ok none)] none
  | failed {version exchanges e} : Resolution package version exchanges (.error e) →
      SearchLookup package (.version package none (.ok (some version)) :: exchanges) none
  | resolved {version exchanges types} : Resolution package version exchanges (.ok types) →
      SearchLookup package (.version package none (.ok (some version)) :: exchanges) types

/-- How frameworks can be searched side by side: what is asked and answered, and the declarations of
those that can be searched, in the order of the list. -/
inductive SearchRun (s : Service σ) :
    List Text → List Exchange → List (Text × ResolvedTypes) → Prop
  | nil : SearchRun s [] [] []
  | cons {framework frameworks own others exchanges types found} :
      SearchLookup (s.packageToSearch framework) own types →
      SearchRun s frameworks others found → Woven own others exchanges →
      SearchRun s (framework :: frameworks) exchanges
        ((types.map fun types => (framework, types)).toList ++ found)

/-- How a search can go, with its response. -/
inductive JoinedSearch (s : Service σ) (request : SearchRequest) :
    List Exchange → SearchResponse → Prop
  | blank : Text.trim request.query = [] → JoinedSearch s request [] { query := [] }
  | words {exchanges found} : Text.trim request.query ≠ [] →
      SearchRun s (request.frameworksToSearch s.settings.search) exchanges found →
      JoinedSearch s request exchanges
        (Service.mergeResults (Text.trim request.query) (request.limitToUse s.settings.search)
          (found.map fun f => (f.1, (allResults (Text.trim request.query) f).take
            (request.limitToUse s.settings.search))))

/-- Whether questions in both lists have the same answers. -/
def AnsweredAlike (as bs : List Exchange) : Prop := ∀ a ∈ as, ∀ b ∈ bs, a.call = b.call → a = b

namespace AnsweredAlike
variable {as bs as' bs' : List Exchange} {a b : Exchange}

theorem mono (alike : AnsweredAlike as bs) (fewer : ∀ e ∈ as', e ∈ as) (fewer' : ∀ e ∈ bs', e ∈ bs) :
    AnsweredAlike as' bs' :=
  fun a member b member' => alike a (fewer a member) b (fewer' b member')

theorem head (alike : AnsweredAlike (a :: as) (b :: bs)) (same : a.call = b.call) : a = b :=
  alike a List.mem_cons_self b List.mem_cons_self same

theorem tail (alike : AnsweredAlike (a :: as) (b :: bs)) : AnsweredAlike as bs :=
  alike.mono (fun _ => List.mem_cons_of_mem a) fun _ => List.mem_cons_of_mem b

end AnsweredAlike

section
variable {as bs : List Exchange} (alike : AnsweredAlike as bs)
include alike

theorem CommunityLookup.eq_of_alike {fallback : Text}
    {types types' : Except Failure (Option ResolvedTypes)}
    (first : CommunityLookup fallback as types) (second : CommunityLookup fallback bs types') :
    types = types' := by
  cases first with
  | lookupFailed =>
      cases second with
      | lookupFailed =>
          cases alike.head rfl
          rfl
      | unpublished | failed | missing | found => cases alike.head rfl
  | unpublished =>
      cases second with
      | unpublished => rfl
      | lookupFailed | failed | missing | found => cases alike.head rfl
  | failed =>
      cases second with
      | lookupFailed | unpublished => cases alike.head rfl
      | failed =>
          cases alike.head rfl
          cases alike.tail.head rfl
          rfl
      | missing | found =>
          cases alike.head rfl
          cases alike.tail.head rfl
  | missing =>
      cases second with
      | lookupFailed | unpublished => cases alike.head rfl
      | missing => rfl
      | failed | found =>
          cases alike.head rfl
          cases alike.tail.head rfl
  | found =>
      cases second with
      | lookupFailed | unpublished => cases alike.head rfl
      | found =>
          cases alike.head rfl
          cases alike.tail.head rfl
          rfl
      | failed | missing =>
          cases alike.head rfl
          cases alike.tail.head rfl

theorem Resolution.eq_of_alike {package version : Text}
    {types types' : Except Failure (Option ResolvedTypes)}
    (first : Resolution package version as types) (second : Resolution package version bs types') :
    types = types' := by
  cases first with
  | failed e =>
      cases second with
      | failed =>
          cases alike.head rfl
          rfl
      | own | untyped | community => cases alike.head rfl
  | own file =>
      cases second with
      | own =>
          cases alike.head rfl
          rfl
      | failed | untyped | community => cases alike.head rfl
  | untyped same =>
      cases second with
      | untyped => rfl
      | community other => exact absurd same other
      | failed | own => cases alike.head rfl
  | community other lookup =>
      cases second with
      | untyped same => exact absurd same other
      | community _ lookup' => exact lookup.eq_of_alike alike.tail lookup'
      | failed | own => cases alike.head rfl

theorem SearchLookup.eq_of_alike {package : Text} {types types' : Option ResolvedTypes}
    (first : SearchLookup package as types) (second : SearchLookup package bs types') :
    types = types' := by
  cases first with
  | lookupFailed e =>
      cases second with
      | lookupFailed => rfl
      | unpublished | failed | resolved => cases alike.head rfl
  | unpublished =>
      cases second with
      | unpublished => rfl
      | lookupFailed | failed | resolved => cases alike.head rfl
  | failed resolution =>
      cases second with
      | lookupFailed | unpublished => cases alike.head rfl
      | failed => rfl
      | resolved resolution' =>
          cases alike.head rfl
          cases resolution.eq_of_alike alike.tail resolution'
  | resolved resolution =>
      cases second with
      | lookupFailed | unpublished => cases alike.head rfl
      | failed resolution' =>
          cases alike.head rfl
          cases resolution.eq_of_alike alike.tail resolution'
      | resolved resolution' =>
          cases alike.head rfl
          cases resolution.eq_of_alike alike.tail resolution'
          rfl

/-- The same questions with the same answers come to the same declarations, in whatever order the
frameworks ask them. -/
theorem SearchRun.eq_of_alike {s : Service σ} {frameworks : List Text}
    {found found' : List (Text × ResolvedTypes)} (first : SearchRun s frameworks as found)
    (second : SearchRun s frameworks bs found') : found = found' := by
  induction first generalizing bs found' with
  | nil =>
      cases second
      rfl
  | cons lookup _ woven ih =>
      cases second with
      | cons lookup' run' woven' =>
          have own := alike.mono (fun e member => (woven.mem_iff e).2 (.inl member))
            fun e member => (woven'.mem_iff e).2 (.inl member)
          have others := alike.mono (fun e member => (woven.mem_iff e).2 (.inr member))
            fun e member => (woven'.mem_iff e).2 (.inr member)
          rw [lookup.eq_of_alike own lookup', ih others run']

end

/-- However the questions come among each other, the response has the beginning of the stable ranking
of all results of the frameworks that can be searched. -/
theorem JoinedSearch.merges {s : Service σ} {request : SearchRequest} {exchanges : List Exchange}
    {r : SearchResponse} (run : JoinedSearch s request exchanges r) :
    ∃ found, (Text.trim request.query ≠ [] →
        SearchRun s (request.frameworksToSearch s.settings.search) exchanges found) ∧
      r.results = ((found.flatMap (allResults (Text.trim request.query))).mergeSort
        (scoresAtLeast SearchResult.score)).take (request.limitToUse s.settings.search) ∧
      r.totalFound = (found.map fun f => min (request.limitToUse s.settings.search)
        (allResults (Text.trim request.query) f).length).sum := by
  cases run with
  | blank empty =>
      refine ⟨[], fun words => absurd empty words, ?_, rfl⟩
      rw [List.flatMap_nil, List.mergeSort_nil, List.take_nil]
  | words _ run =>
      exact ⟨_, fun _ => run, Service.mergeResults_results _ _ _,
        Service.mergeResults_totalFound _ _ _⟩

/-- Where the same questions are answered alike, the order in which they come changes nothing. -/
theorem JoinedSearch.response_eq {s : Service σ} {request : SearchRequest}
    {as bs : List Exchange} {r r' : SearchResponse} (alike : AnsweredAlike as bs)
    (first : JoinedSearch s request as r) (second : JoinedSearch s request bs r') : r = r' := by
  cases first with
  | blank empty =>
      cases second with
      | blank => rfl
      | words words => exact absurd empty words
  | words words run =>
      cases second with
      | blank empty => exact absurd empty words
      | words _ run' => rw [run.eq_of_alike alike run']

namespace Service

theorem typesToSearch_recorded (s : Service σ) (framework : Text) (state : σ)
    (log : List Exchange) : ∃ exchanges,
    s.recorded.typesToSearch framework ⟨state, log⟩ =
      ((s.typesToSearch framework state).1,
        ⟨(s.typesToSearch framework state).2, log ++ exchanges⟩) ∧
    SearchLookup (s.packageToSearch framework) exchanges (s.typesToSearch framework state).1 := by
  rcases looked : s.sources.version (s.packageToSearch framework) none state with
    ⟨e | _ | version, after⟩
  · simp only [typesToSearch, recorded_packageToSearch, recorded_version, looked]
    exact ⟨_, rfl, .lookupFailed e⟩
  · simp only [typesToSearch, recorded_packageToSearch, recorded_version, looked]
    exact ⟨_, rfl, .unpublished⟩
  · obtain ⟨exchanges, heard, resolution⟩ := s.resolveTypes_recorded (s.packageToSearch framework)
      version after (log ++ [.version (s.packageToSearch framework) none (.ok (some version))])
    rcases resolved : s.resolveTypes (s.packageToSearch framework) version after with
      ⟨e | types, last⟩
    all_goals
      rw [resolved] at heard resolution
      simp only [typesToSearch, recorded_packageToSearch, recorded_version, looked, heard, resolved,
        List.append_assoc, List.cons_append, List.nil_append]
    · exact ⟨_, rfl, .failed resolution⟩
    · exact ⟨_, rfl, .resolved resolution⟩

theorem searchFramework_recorded (s : Service σ) (query : Text) (limit : Nat) (framework : Text)
    (session : Session σ) (log : List Exchange) : ∃ exchanges,
    s.recorded.searchFramework query limit framework (session.recording log) =
      ((s.searchFramework query limit framework session).1,
        (s.searchFramework query limit framework session).2.recording (log ++ exchanges)) ∧
    SearchLookup (s.packageToSearch framework) exchanges
      (s.typesToSearch framework session.outside).1 := by
  obtain ⟨exchanges, heard, lookup⟩ := s.typesToSearch_recorded framework session.outside log
  refine ⟨exchanges, ?_, lookup⟩
  rcases found : s.typesToSearch framework session.outside with ⟨types, after⟩
  rw [found] at heard
  cases types with
  | none => simp only [searchFramework, heard, found, Session.recording]
  | some types =>
      simp only [searchFramework, Session.recording_outside, heard, found]
      exact congrArg (fun answer : List Declaration.Hit × Session (Recorded σ) =>
        (some (answer.1.map (SearchResult.ofHit framework types)), answer.2))
        (Session.search_recording { session with outside := after } (log ++ exchanges) types.file
          query limit)

/-- To search in turn is one way to search side by side. -/
theorem searchFrameworks_recorded (s : Service σ) (query : Text) (limit : Nat)
    (frameworks : List Text) (session : Session σ) (log : List Exchange) : ∃ exchanges,
    s.recorded.searchFrameworks query limit frameworks (session.recording log) =
      ((s.searchFrameworks query limit frameworks session).1,
        (s.searchFrameworks query limit frameworks session).2.recording (log ++ exchanges)) ∧
    SearchRun s frameworks exchanges (s.searchable frameworks session.outside).1 := by
  induction frameworks generalizing session log with
  | nil => exact ⟨[], by rw [List.append_nil]; rfl, .nil⟩
  | cons framework frameworks ih =>
      obtain ⟨own, first, lookup⟩ := s.searchFramework_recorded query limit framework session log
      obtain ⟨others, rest, run⟩ :=
        ih (s.searchFramework query limit framework session).2 (log ++ own)
      rw [searchFramework_outside] at run
      refine ⟨own ++ others, ?_, .cons lookup run (.concat own others)⟩
      rw [searchFrameworks_cons, searchFrameworks_cons, first]
      dsimp only
      rw [rest, List.append_assoc]

/-- What a search asks, with the answers, in order. -/
def searchExchanges (s : Service σ) (request : SearchRequest) (session : Session σ) :
    List Exchange :=
  (s.recorded.search request (session.recording [])).2.outside.exchanges

/-- A search is one of the ways to search side by side, and all others in which the same questions
are answered as in it have its response. -/
theorem search_joined (s : Service σ) (request : SearchRequest) (session : Session σ) :
    JoinedSearch s request (s.searchExchanges request session) (s.search request session).1 ∧
    ∀ exchanges r, JoinedSearch s request exchanges r →
      AnsweredAlike exchanges (s.searchExchanges request session) →
      r = (s.search request session).1 := by
  have inTurn : JoinedSearch s request (s.searchExchanges request session)
      (s.search request session).1 := by
    by_cases blank : Text.trim request.query = []
    · have silent : s.searchExchanges request session = [] := by
        simp only [searchExchanges, search, blank, List.isEmpty_nil, if_true]
        rfl
      rw [silent, s.search_fst_of_blank request session blank]
      exact .blank blank
    · obtain ⟨exchanges, heard, run⟩ := s.searchFrameworks_recorded (Text.trim request.query)
        (request.limitToUse s.settings.search) (request.frameworksToSearch s.settings.search)
        session []
      have asked : s.searchExchanges request session = exchanges := by
        simp only [searchExchanges, search, List.isEmpty_iff, if_neg blank, recorded_settings, heard]
        rfl
      rw [asked, s.search_fst_of_words request session blank]
      exact .words blank run
  exact ⟨inTurn, fun _ _ run alike => run.response_eq alike inTurn⟩

end Service
end ApiReference
