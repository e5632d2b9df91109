import ApiReference.Proofs.Service.Conversation
import ApiReference.Proofs.Service.Merging
import ApiReference.Service.World
import Mathlib.Data.List.Basic

/-!
# Searches do not disturb each other

The frameworks of a search share the readings that are kept, and their results are ranked together.
If the sources answer questions always alike, a framework still finds what it would find alone: a
framework that cannot be searched is as good as left out, and what others are answered is of no
consequence. Main statement: `search_isolates`.
-/

namespace ApiReference
open ApiReference.Declaration (filter_rank rank)
open ApiReference.Package (definitelyTypedName)

variable {σ σ' : Type}

/-- Two sources answer alike whatever they are asked about the declarations of a package, and
whatever they were asked before. -/
structure Agree (a : Sources σ) (b : Sources σ') (package : Text) : Prop where
  version : ∀ request state state',
    (a.version package request state).1 = (b.version package request state').1
  types : ∀ version state state',
    (a.types package version state).1 = (b.types package version state').1

namespace Agree
variable {a : Sources σ} {b : Sources σ'} {package version : Text} {request : Option Text}
variable {state after : σ}

theorem version_eq (agree : Agree a b package) {answer : Except Failure (Option Text)}
    (looked : a.version package request state = (answer, after)) (state' : σ') :
    ∃ after', b.version package request state' = (answer, after') := by
  have same := agree.version request state state'
  rw [looked] at same
  exact ⟨_, Prod.ext same.symm rfl⟩

theorem types_eq (agree : Agree a b package) {answer : Except Failure (Option TypeFile)}
    (asked : a.types package version state = (answer, after)) (state' : σ') :
    ∃ after', b.types package version state' = (answer, after') := by
  have same := agree.types version state state'
  rw [asked] at same
  exact ⟨_, Prod.ext same.symm rfl⟩

end Agree

/-- The package that a question is about, if it is about one. -/
def Call.package? : Call → Option Text
  | .version package _ | .types package _ | .file package _ _ => some package
  | .examples _ _ => none

theorem CommunityLookup.asks {fallback : Text} {exchanges : List Exchange}
    {types : Except Failure (Option ResolvedTypes)}
    (h : CommunityLookup fallback exchanges types) :
    ∃ answer, .version fallback none answer ∈ exchanges := by
  cases h <;> exact ⟨_, List.mem_cons_self⟩

namespace Service

/-- The packages that the search of a framework asks about. -/
def packagesAsked (s : Service σ) (request : SearchRequest) (framework : Text)
    (session : Session σ) : List Text :=
  (s.recorded.searchFramework (Text.trim request.query) (request.limitToUse s.settings.search)
    framework (session.recording [])).2.outside.calls.filterMap Call.package?

theorem communityTypes_agree {s : Service σ} {t : Service σ'} {package : Text}
    (agree : definitelyTypedName package ≠ package →
      Agree s.sources t.sources (definitelyTypedName package)) (state : σ) (state' : σ') :
    (s.communityTypes package state).1 = (t.communityTypes package state').1 := by
  by_cases h : definitelyTypedName package = package
  · simp only [communityTypes, if_pos h]
  · rcases looked : s.sources.version (definitelyTypedName package) none state with ⟨answer, after⟩
    obtain ⟨after', looked'⟩ := (agree h).version_eq looked state'
    rcases answer with e | _ | version
    · simp only [communityTypes, if_neg h, looked, looked']
    · simp only [communityTypes, if_neg h, looked, looked']
    · rcases asked : s.sources.types (definitelyTypedName package) version after with ⟨file, last⟩
      obtain ⟨last', asked'⟩ := (agree h).types_eq asked after'
      rcases file with e | _ | file <;>
        simp only [communityTypes, if_neg h, looked, looked', asked, asked']

theorem resolveTypes_agree {s : Service σ} {t : Service σ'} {package version : Text}
    (own : Agree s.sources t.sources package) (state : σ) (state' : σ')
    (community : (s.sources.types package version state).1 = .ok none →
      definitelyTypedName package ≠ package →
      Agree s.sources t.sources (definitelyTypedName package)) :
    (s.resolveTypes package version state).1 = (t.resolveTypes package version state').1 := by
  rcases asked : s.sources.types package version state with ⟨answer, after⟩
  obtain ⟨after', asked'⟩ := own.types_eq asked state'
  rcases answer with e | _ | file <;> simp only [resolveTypes, asked, asked']
  rw [asked] at community
  exact communityTypes_agree (community rfl) after after'

@[simp] theorem recorded_packageToSearch (s : Service σ) (framework : Text) :
    s.recorded.packageToSearch framework = s.packageToSearch framework := rfl

/-- Where a version is known, the search asks what is asked for the declarations. -/
theorem exchanges_typesToSearch {s : Service σ} {framework version : Text} {state after : σ}
    (looked : s.sources.version (s.packageToSearch framework) none state =
      (.ok (some version), after)) :
    (s.recorded.typesToSearch framework ⟨state, []⟩).2.exchanges =
      (s.recorded.resolveTypes (s.packageToSearch framework) version ⟨after,
        [.version (s.packageToSearch framework) none (.ok (some version))]⟩).2.exchanges := by
  simp only [typesToSearch, recorded_packageToSearch, recorded_version, looked, List.nil_append]
  rcases s.recorded.resolveTypes (s.packageToSearch framework) version ⟨after,
    [.version (s.packageToSearch framework) none (.ok (some version))]⟩ with ⟨e | types, last⟩
  · rfl
  · rfl

section Asked
variable {s : Service σ} {request : SearchRequest} {framework : Text} {session : Session σ}

theorem mem_packagesAsked {x : Exchange} {package : Text} (about : x.call.package? = some package)
    (asked : x ∈ (s.recorded.typesToSearch framework ⟨session.outside, []⟩).2.exchanges) :
    package ∈ s.packagesAsked request framework session := by
  unfold packagesAsked
  rw [searchFramework_outside, Session.recording_outside]
  exact List.mem_filterMap.mpr ⟨x.call, List.mem_map_of_mem asked, about⟩

theorem package_asked :
    s.packageToSearch framework ∈ s.packagesAsked request framework session := by
  rcases looked : s.sources.version (s.packageToSearch framework) none session.outside with
    ⟨answer, after⟩
  refine mem_packagesAsked (x := .version (s.packageToSearch framework) none answer) rfl ?_
  rcases answer with e | _ | version
  · simp [typesToSearch, looked]
  · simp [typesToSearch, looked]
  · obtain ⟨exchanges, heard, -⟩ := s.resolveTypes_recorded (s.packageToSearch framework) version
      after [.version (s.packageToSearch framework) none (.ok (some version))]
    rw [exchanges_typesToSearch looked, heard]
    exact List.mem_append_left _ List.mem_cons_self

theorem community_asked {version : Text} {after : σ}
    (looked : s.sources.version (s.packageToSearch framework) none session.outside =
      (.ok (some version), after))
    (untyped : (s.sources.types (s.packageToSearch framework) version after).1 = .ok none)
    (h : definitelyTypedName (s.packageToSearch framework) ≠ s.packageToSearch framework) :
    definitelyTypedName (s.packageToSearch framework) ∈
      s.packagesAsked request framework session := by
  rcases asked : s.sources.types (s.packageToSearch framework) version after with ⟨answer, last⟩
  rw [asked] at untyped
  obtain rfl : answer = .ok none := untyped
  obtain ⟨exchanges, heard, lookup⟩ := s.communityTypes_recorded (s.packageToSearch framework) last
    ([.version (s.packageToSearch framework) none (.ok (some version))] ++
      [.types (s.packageToSearch framework) version (.ok none)]) h
  obtain ⟨answer, member⟩ := lookup.asks
  refine mem_packagesAsked
    (x := .version (definitelyTypedName (s.packageToSearch framework)) none answer) rfl ?_
  rw [exchanges_typesToSearch looked]
  simp only [resolveTypes, recorded_types, asked, heard]
  exact List.mem_append_right _ member

end Asked

/-- The declarations to search depend on the answers about the packages asked about only. -/
theorem typesToSearch_agree {s : Service σ} {t : Service σ'} (settings : t.settings = s.settings)
    (request : SearchRequest) (framework : Text) (session : Session σ)
    (agree : ∀ package ∈ s.packagesAsked request framework session,
      Agree s.sources t.sources package) (state' : σ') :
    (s.typesToSearch framework session.outside).1 = (t.typesToSearch framework state').1 := by
  have package : t.packageToSearch framework = s.packageToSearch framework := by
    simp only [packageToSearch, catalog, settings]
  have own := agree _ package_asked
  rcases looked : s.sources.version (s.packageToSearch framework) none session.outside with
    ⟨answer, after⟩
  obtain ⟨after', looked'⟩ := own.version_eq looked state'
  rcases answer with e | _ | version
  · simp only [typesToSearch, package, looked, looked']
  · simp only [typesToSearch, package, looked, looked']
  · -- The community's package counts only where it is asked about.
    have types := resolveTypes_agree own after after'
      fun untyped h => agree _ (community_asked looked untyped h)
    rcases resolved : s.resolveTypes (s.packageToSearch framework) version after with ⟨found, last⟩
    rcases resolved' : t.resolveTypes (s.packageToSearch framework) version after' with
      ⟨found', last'⟩
    rw [resolved, resolved'] at types
    obtain rfl : found = found' := types
    rcases found with e | found <;>
      simp only [typesToSearch, package, looked, looked', resolved, resolved']

theorem typesToSearch_functional {s : Service σ}
    (functional : ∀ package, Agree s.sources s.sources package) (framework : Text)
    (state state' : σ) :
    (s.typesToSearch framework state).1 = (s.typesToSearch framework state').1 :=
  typesToSearch_agree rfl { query := [] } framework ⟨state, Declaration.Reader.empty 0⟩
    (fun package _ => functional package) state'

/-- Whether an entry of a list of frameworks names one that can be searched. -/
def succeeds (s : Service σ) (state : σ) (entry : Text) : Bool :=
  !(Text.trim entry).isEmpty && (s.typesToSearch (Text.trim entry) state).1.isSome

/-- What the search of an entry of a list of frameworks has to go by. -/
def searchable? (s : Service σ) (state : σ) (entry : Text) : Option (Text × ResolvedTypes) :=
  if (Text.trim entry).isEmpty then none
  else (s.typesToSearch (Text.trim entry) state).1.map fun types => (Text.trim entry, types)

theorem isSome_searchable? (s : Service σ) (state : σ) (entry : Text) :
    (s.searchable? state entry).isSome = s.succeeds state entry := by
  unfold searchable? succeeds
  cases (Text.trim entry).isEmpty <;> simp

theorem map_fst_searchable? (s : Service σ) (state : σ) (listed : List Text) :
    (listed.filterMap (s.searchable? state)).map Prod.fst =
      (listed.filter (s.succeeds state)).map Text.trim := by
  induction listed with
  | nil => rfl
  | cons entry listed ih =>
      have success := s.isSome_searchable? state entry
      cases found : s.searchable? state entry with
      | none =>
          rw [found] at success
          rw [List.filterMap_cons_none found, List.filter_cons_of_neg (by simp [← success]), ih]
      | some pair =>
          rw [found] at success
          have name : pair.1 = Text.trim entry := by
            unfold searchable? at found
            split at found
            · cases found
            · obtain ⟨types, -, rfl⟩ := Option.map_eq_some_iff.mp found
              rfl
          rw [List.filterMap_cons_some found, List.filter_cons_of_pos (by simp [← success]),
            List.map_cons, List.map_cons, ih, name]

theorem givenTexts_cons (entry : Text) (listed : List Text) : givenTexts (entry :: listed) =
    if (Text.trim entry).isEmpty then givenTexts listed
    else Text.trim entry :: givenTexts listed := by
  unfold givenTexts
  cases h : (Text.trim entry).isEmpty <;> simp [h]

theorem searchable_givenTexts {s : Service σ}
    (functional : ∀ package, Agree s.sources s.sources package) (listed : List Text)
    (state state' : σ) :
    (s.searchable (givenTexts listed) state').1 = listed.filterMap (s.searchable? state) := by
  induction listed generalizing state' with
  | nil => rfl
  | cons entry listed ih =>
      rw [givenTexts_cons, List.filterMap_cons]
      by_cases blank : (Text.trim entry).isEmpty
      · rw [if_pos blank, ih state']
        simp only [searchable?, if_pos blank]
      · rw [if_neg blank, searchable_cons, ih,
          typesToSearch_functional functional (Text.trim entry) state' state]
        simp only [searchable?, if_neg blank]
        cases (s.typesToSearch (Text.trim entry) state).1 <;> rfl

/-- A search goes through the listed frameworks that can be searched and ignores the others. -/
theorem search_fst_of_listed {s : Service σ}
    (functional : ∀ package, Agree s.sources s.sources package) {request : SearchRequest}
    {listed : List Text} (explicit : request.frameworks = some listed) (nonempty : listed ≠ [])
    (state : σ) (session : Session σ) :
    (s.search request session).1 =
      if Text.trim request.query = [] then { query := [] }
      else mergeResults (Text.trim request.query) (request.limitToUse s.settings.search)
        ((listed.filterMap (s.searchable? state)).map fun f => (f.1,
          (allResults (Text.trim request.query) f).take
            (request.limitToUse s.settings.search))) := by
  have given : request.frameworksToSearch s.settings.search = givenTexts listed := by
    unfold SearchRequest.frameworksToSearch
    rw [explicit, Option.filter_some, if_pos (by simpa using nonempty), Option.getD_some]
  split
  · next blank => exact s.search_fst_of_blank request session blank
  · next words =>
      rw [s.search_fst_of_words request session words, given,
        searchable_givenTexts functional listed state]

/-- The merged results of a search before the limit cuts them. -/
def merged (s : Service σ) (request : SearchRequest) (session : Session σ) : List SearchResult :=
  rank SearchResult.score ((s.searchFrameworks (Text.trim request.query)
    (request.limitToUse s.settings.search) (request.frameworksToSearch s.settings.search)
    session).1.flatMap Prod.snd)

/-- The merged results of one framework. -/
def share (s : Service σ) (request : SearchRequest) (session : Session σ) (framework : Text) :
    List SearchResult :=
  (s.merged request session).filter fun r => r.framework = framework

theorem results_eq_take_merged (s : Service σ) (request : SearchRequest) (session : Session σ) :
    (s.search request session).1.results =
      (s.merged request session).take (request.limitToUse s.settings.search) := by
  by_cases blank : Text.trim request.query = []
  · have nothing : s.merged request session = [] := by
      unfold merged
      rw [searchFrameworks_fst, blank, allResults_nil, List.flatMap_map,
        List.flatMap_eq_nil_iff.mpr fun f _ => List.take_nil]
      rfl
    rw [s.search_fst_of_blank request session blank, nothing, List.take_nil]
  · rw [s.search_fst_of_words request session blank, ← searchFrameworks_fst]
    rfl

theorem filter_allResults (query : Text) (limit : Nat) (framework : Text)
    (found : List (Text × ResolvedTypes)) :
    (found.flatMap fun f => (allResults query f).take limit).filter
        (fun r => r.framework = framework) =
      (found.filter fun f => f.1 = framework).flatMap fun f =>
        (allResults query f).take limit := by
  induction found with
  | nil => rfl
  | cons f found ih =>
      have named : ∀ r ∈ (allResults query f).take limit, r.framework = f.1 := by
        intro r member
        obtain ⟨hit, -, rfl⟩ := List.mem_map.mp (List.mem_of_mem_take member)
        rfl
      rw [List.flatMap_cons, List.filter_append, ih]
      by_cases same : f.1 = framework
      · rw [List.filter_cons_of_pos (by simpa using same), List.flatMap_cons,
          List.filter_eq_self.mpr fun r member => by simpa using (named r member).trans same]
      · rw [List.filter_cons_of_neg (by simpa using same), List.filter_eq_nil_iff.mpr
          fun r member => by simpa using fun this => same ((named r member).symm.trans this),
          List.nil_append]

theorem share_eq (s : Service σ) (request : SearchRequest) (session : Session σ)
    (framework : Text) : s.share request session framework =
      rank SearchResult.score
        (((s.searchable (request.frameworksToSearch s.settings.search) session.outside).1.filter
          fun f => f.1 = framework).flatMap fun f => (allResults (Text.trim request.query) f).take
            (request.limitToUse s.settings.search)) := by
  unfold share merged
  rw [filter_rank, searchFrameworks_fst, List.flatMap_map, filter_allResults]

/-- A framework has the same declarations, wherever in a list it is searched. -/
theorem filter_searchable_agree {s : Service σ} {t : Service σ'}
    (functional : ∀ package, Agree s.sources s.sources package)
    (settings : t.settings = s.settings) (request : SearchRequest) (framework : Text)
    (session : Session σ)
    (agree : ∀ package ∈ s.packagesAsked request framework session,
      Agree s.sources t.sources package) (frameworks : List Text) (state : σ) (state' : σ') :
    (s.searchable frameworks state).1.filter (fun f => f.1 = framework) =
      (t.searchable frameworks state').1.filter fun f => f.1 = framework := by
  induction frameworks generalizing state state' with
  | nil => rfl
  | cons first frameworks ih =>
      have rest := ih (s.typesToSearch first state).2 (t.typesToSearch first state').2
      rw [searchable_cons, searchable_cons, List.filter_append, List.filter_append, rest]
      -- Both run the framework where they have come to, but its answers depend on no state.
      by_cases same : first = framework
      · subst same
        rw [typesToSearch_functional functional first state session.outside,
          typesToSearch_agree settings request first session agree state']
      · have other : ∀ types : Option ResolvedTypes,
            (types.map fun types => (first, types)).toList.filter
              (fun f => decide (f.1 = framework)) = [] := by
          intro types
          cases types <;> simp [same]
        rw [other, other]

/-- Let the sources answer questions always alike, and let a request list frameworks of which one
can be searched. To leave out others that cannot be searched does not change the response, which
names those that can, unless the query is blank; and the merged results of a framework depend only
on what is answered about the packages that its own search asks about. Nothing depends on the
readings that are kept. -/
theorem search_isolates (s : Service σ) (request : SearchRequest) (session : Session σ)
    (listed : List Text) (functional : ∀ package, Agree s.sources s.sources package)
    (explicit : request.frameworks = some listed)
    (success : ∃ entry ∈ listed, s.succeeds session.outside entry) :
    (∀ (keep : Text → Bool) (session' : Session σ),
      (∀ entry ∈ listed, s.succeeds session.outside entry → keep entry) →
      (s.search { request with frameworks := some (listed.filter keep) } session').1 =
        (s.search request session).1) ∧
    (s.search request session).1.frameworksSearched =
      (if Text.trim request.query = [] then []
        else (listed.filter (s.succeeds session.outside)).map Text.trim) ∧
    (s.search request session).1.results =
      (s.merged request session).take (request.limitToUse s.settings.search) ∧
    ∀ (σ' : Type) (t : Service σ') (session' : Session σ') (framework : Text),
      t.settings = s.settings →
      (∀ package ∈ s.packagesAsked request framework session,
        Agree s.sources t.sources package) →
      t.share request session' framework = s.share request session framework := by
  obtain ⟨first, member, works⟩ := success
  refine ⟨?_, ?_, s.results_eq_take_merged request session, ?_⟩
  · intro keep session' spared
    have left : first ∈ listed.filter keep :=
      List.mem_filter.mpr ⟨member, spared first member works⟩
    -- What is left out had nothing to be searched, so the same declarations are searched.
    have same : (listed.filter keep).filterMap (s.searchable? session.outside) =
        listed.filterMap (s.searchable? session.outside) := by
      rw [List.filterMap_filter]
      refine List.filterMap_congr fun entry within => ?_
      by_cases kept : keep entry
      · rw [if_pos kept]
      · have fails : ¬ (s.searchable? session.outside entry).isSome := by
          rw [isSome_searchable?]
          exact fun works => kept (spared entry within works)
        rw [if_neg kept, Option.not_isSome_iff_eq_none.mp fails]
    rw [search_fst_of_listed functional rfl (List.ne_nil_of_mem left) session.outside session',
      search_fst_of_listed functional explicit (List.ne_nil_of_mem member) session.outside session,
      same]
    rfl
  · rw [search_fst_of_listed functional explicit (List.ne_nil_of_mem member) session.outside
      session, ← map_fst_searchable?]
    split
    · rfl
    · simp only [mergeResults, List.map_map, Function.comp_def]
  · intro σ' t session' framework settings agree
    rw [share_eq, share_eq, settings, filter_searchable_agree functional settings request framework
      session agree _ session.outside session'.outside]

end Service

/-! Three frameworks are searched, of which one is not published. -/

namespace Trio

/-- A world in which one framework declares a given text. -/
def world (vue : String) : World :=
  { versions := [("react".toList, ["19.0.0".toList]), ("vue".toList, ["3.5.0".toList])]
    types := [("react".toList, "declare function useState(): void;".toList),
      ("vue".toList, vue.toList)] }

def service (vue : String) : Service Unit := ⟨{}, (world vue).sources⟩

def session : Session Unit := Session.start {} ()

def listed : List Text := [" react ".toList, "svelte".toList, "vue".toList]

def request (query : String) : SearchRequest :=
  { query := query.toList, frameworks := some listed }

def declaration : String := "declare function useModel(): void;"

theorem functional (vue : String) (package : Text) :
    Agree (service vue).sources (service vue).sources package :=
  ⟨fun _ _ _ => rfl, fun _ _ _ => rfl⟩

/-- What the other published framework declares is of no consequence. -/
theorem search_isolates_trio :
    ((service declaration).search
        { query := "use".toList, frameworks := some [" react ".toList, "vue".toList] } session).1 =
      ((service declaration).search (request "use") session).1 ∧
    ((service declaration).search (request "use") session).1.frameworksSearched =
      ["react".toList, "vue".toList] ∧
    (service "interface Use {}").share (request "use") session "react".toList =
      (service declaration).share (request "use") session "react".toList := by
  have success : ∃ entry ∈ listed, (service declaration).succeeds session.outside entry :=
    ⟨" react ".toList, List.mem_cons_self, by decide +kernel⟩
  obtain ⟨left, searched, -, shares⟩ := (service declaration).search_isolates (request "use")
    session listed (functional declaration) rfl success
  refine ⟨left (fun entry => entry ≠ "svelte".toList) session (by decide +kernel), ?_, ?_⟩
  · exact searched.trans (by decide +kernel)
  · refine shares Unit (service "interface Use {}") session "react".toList rfl ?_
    have asked : (service declaration).packagesAsked (request "use") "react".toList session =
        ["react".toList, "react".toList] := by decide +kernel
    rw [asked]
    intro package member
    obtain rfl : package = "react".toList := by simpa using member
    exact ⟨fun _ _ _ => rfl, fun _ _ _ => rfl⟩

/-- With a blank query even a framework that can be searched is not. -/
theorem blank_query_unsearched :
    (∀ package, Agree (service declaration).sources (service declaration).sources package) ∧
    (request "  ").frameworks = some listed ∧
    (∃ entry ∈ listed, (service declaration).succeeds session.outside entry) ∧
    ((service declaration).search (request "  ") session).1.frameworksSearched ≠
      (listed.filter ((service declaration).succeeds session.outside)).map Text.trim := by
  refine ⟨functional declaration, rfl, ?_, by decide +kernel⟩
  exact ⟨" react ".toList, List.mem_cons_self, by decide +kernel⟩

end Trio
end ApiReference
