import ApiReference.Proofs.Service.Reading
import ApiReference.Service.Context

/-!
# Conversations

What a request for a context asks the sources, with their answers and with the response that comes
of them. `ContextRun` has a case for every way in which a request can go; `contextRun` says that
there are no others, and what holds of all requests is derived from its cases.
-/

namespace ApiReference
open ApiReference.Declaration (ApiSignature)
open ApiReference.Package (CodeExample definitelyTypedName)

variable {σ : Type}

/-- The service with a record of all questions and answers. -/
def Service.recorded (s : Service σ) : Service (Recorded σ) := ⟨s.settings, s.sources.recorded⟩

namespace Service
variable (s : Service σ) (state : σ) (log : List Exchange)

@[simp] theorem recorded_settings : s.recorded.settings = s.settings := rfl

@[simp] theorem recorded_catalog : s.recorded.catalog = s.catalog := rfl

@[simp] theorem recorded_parseQuery (query : Text) :
    s.recorded.parseQuery query = s.parseQuery query := rfl

@[simp] theorem recorded_barrelPaths (package concept : Text) :
    s.recorded.sources.barrelPaths package concept = s.sources.barrelPaths package concept := rfl

@[simp] theorem recorded_version (package : Text) (request : Option Text) :
    s.recorded.sources.version package request ⟨state, log⟩ =
      ((s.sources.version package request state).1,
        ⟨(s.sources.version package request state).2,
          log ++ [.version package request (s.sources.version package request state).1]⟩) := rfl

@[simp] theorem recorded_types (package version : Text) :
    s.recorded.sources.types package version ⟨state, log⟩ =
      ((s.sources.types package version state).1,
        ⟨(s.sources.types package version state).2,
          log ++ [.types package version (s.sources.types package version state).1]⟩) := rfl

@[simp] theorem recorded_file (package version path : Text) :
    s.recorded.sources.file package version path ⟨state, log⟩ =
      ((s.sources.file package version path state).1,
        ⟨(s.sources.file package version path state).2,
          log ++ [.file package version path (s.sources.file package version path state).1]⟩) := rfl

end Service

/-- The session with a record of what was asked before. -/
def Session.recording (session : Session σ) (log : List Exchange) : Session (Recorded σ) :=
  ⟨⟨session.outside, log⟩, session.reader⟩

namespace Session
variable (session : Session σ) (log : List Exchange)

@[simp] theorem recording_outside : (session.recording log).outside = ⟨session.outside, log⟩ := rfl

theorem extract_recording (file : TypeFile) (concept : Text) :
    (session.recording log).extract file concept =
      ((session.extract file concept).1, (session.extract file concept).2.recording log) := rfl

theorem search_recording (file : TypeFile) (query : Text) (limit : Nat) :
    (session.recording log).search file query limit =
      ((session.search file query limit).1, (session.search file query limit).2.recording log) :=
  rfl

theorem extractAnswer_recording (answer : Except Failure (Option TypeFile)) (concept : Text) :
    (session.recording log).extractAnswer answer concept =
      ((session.extractAnswer answer concept).1,
        (session.extractAnswer answer concept).2.recording log) := by
  rcases answer with e | _ | file <;> rfl

end Session

/-- What the community has for a package without declarations of its own. -/
inductive CommunityLookup (fallback : Text) :
    List Exchange → Except Failure (Option ResolvedTypes) → Prop
  | lookupFailed (e) : CommunityLookup fallback [.version fallback none (.error e)] (.error e)
  | unpublished : CommunityLookup fallback [.version fallback none (.ok none)] (.ok none)
  | failed (version e) : CommunityLookup fallback
      [.version fallback none (.ok (some version)), .types fallback version (.error e)] (.error e)
  | missing (version) : CommunityLookup fallback
      [.version fallback none (.ok (some version)), .types fallback version (.ok none)] (.ok none)
  | found (version file) : CommunityLookup fallback
      [.version fallback none (.ok (some version)), .types fallback version (.ok (some file))]
      (.ok (some ⟨file, fallback, true⟩))

/-- How the declarations of a package are had. -/
inductive Resolution (package version : Text) :
    List Exchange → Except Failure (Option ResolvedTypes) → Prop
  | failed (e) : Resolution package version [.types package version (.error e)] (.error e)
  | own (file) : Resolution package version [.types package version (.ok (some file))]
      (.ok (some ⟨file, package, false⟩))
  | untyped : definitelyTypedName package = package →
      Resolution package version [.types package version (.ok none)] (.ok none)
  | community {exchanges types} : definitelyTypedName package ≠ package →
      CommunityLookup (definitelyTypedName package) exchanges types →
      Resolution package version (.types package version (.ok none) :: exchanges) types

/-- How the first file with a signature is found among those at some paths. -/
inductive BarrelSearch (package version mainPath concept : Text) :
    List Text → List Exchange → Option (ApiSignature × TypeFile) → Prop
  | exhausted : BarrelSearch package version mainPath concept [] [] none
  | main {paths exchanges result} :
      BarrelSearch package version mainPath concept paths exchanges result →
      BarrelSearch package version mainPath concept (mainPath :: paths) exchanges result
  | passed {path paths answer exchanges result} : path ≠ mainPath →
      foundIn? concept answer = none →
      BarrelSearch package version mainPath concept paths exchanges result →
      BarrelSearch package version mainPath concept (path :: paths)
        (.file package version path answer :: exchanges) result
  | found {path paths answer result} : path ≠ mainPath → foundIn? concept answer = some result →
      BarrelSearch package version mainPath concept (path :: paths)
        [.file package version path answer] (some result)

/-- Similar names are the first hits in the main file. -/
inductive SimilarNames (s : Service σ) (types : ResolvedTypes) (concept : Text)
    (r : ContextResponse) : ContextResponse → Prop
  | none : (types.file.hits concept).take s.settings.context.similarApiLimit = [] →
      SimilarNames s types concept r
        (r.note (Note.noDeclaration concept types.package types.file.version))
  | some {hits} : (types.file.hits concept).take s.settings.context.similarApiLimit = hits →
      hits ≠ [] → SimilarNames s types concept r
        ((r.note (Note.similar concept hits.length)).suggesting hits types.file)

/-- How a response gets the signature of a concept, or else similar names. -/
inductive SignatureLookup (s : Service σ) (types : ResolvedTypes) (concept version : Text)
    (r : ContextResponse) : List Exchange → ContextResponse → Prop
  | main {api} : types.file.signature? concept = some api →
      SignatureLookup s types concept version r [] ((r.crediting types).answering api types.file)
  | barrel {exchanges api file} : types.file.signature? concept = none →
      BarrelSearch types.package (types.versionOr version) types.file.path concept
        (s.sources.barrelPaths types.package concept) exchanges (some (api, file)) →
      SignatureLookup s types concept version r exchanges
        (((r.crediting types).note (Note.foundIn api.name file.path)).answering api file)
  | similar {exchanges result} : types.file.signature? concept = none →
      BarrelSearch types.package (types.versionOr version) types.file.path concept
        (s.sources.barrelPaths types.package concept) exchanges none →
      SimilarNames s types concept (r.crediting types) result →
      SignatureLookup s types concept version r exchanges result

/-- What a response gets from the declarations of a package. -/
inductive Attachment (s : Service σ) (package version concept : Text) (r : ContextResponse) :
    Except Failure (Option ResolvedTypes) → List Exchange → ContextResponse → Prop
  | failed (e) : Attachment s package version concept r (.error e) []
      (r.note (Note.typesFailed package e))
  | missing : Attachment s package version concept r (.ok none) []
      (r.note (Note.noTypes package version))
  | found {types exchanges result} : SignatureLookup s types concept version r exchanges result →
      Attachment s package version concept r (.ok (some types)) exchanges result

inductive ExampleLookup (framework concept : Text) :
    Bool → List Exchange → Except Failure (List CodeExample) → Prop
  | unwanted : ExampleLookup framework concept false [] (.ok [])
  | wanted (answer) : ExampleLookup framework concept true
      [.examples framework concept answer] answer

/-- How a request about a subject goes, from a response on. -/
inductive SubjectRun (s : Service σ) (request : ContextRequest) (parsed : Query.Parsed)
    (subject : Subject) (r : ContextResponse) : List Exchange → ContextResponse → Prop
  | conceptless : parsed.concept = [] →
      SubjectRun s request parsed subject r [] (r.note (Note.noConcept subject.framework))
  | lookupFailed (e) : parsed.concept ≠ [] → SubjectRun s request parsed subject r
      [.version subject.package (request.version? parsed) (.error e)]
      (r.note (Note.versionFailed subject.package e))
  | unpublished : parsed.concept ≠ [] → SubjectRun s request parsed subject r
      [.version subject.package (request.version? parsed) (.ok none)]
      (r.note (Note.noVersion (request.version? parsed) subject.package))
  | resolved {version lookups types asked examples files result} : parsed.concept ≠ [] →
      Resolution subject.package version lookups types →
      ExampleLookup subject.framework parsed.concept request.wantsExamples asked examples →
      Attachment s subject.package version parsed.concept { r with version := some version }
        types files result →
      SubjectRun s request parsed subject r
        (.version subject.package (request.version? parsed) (.ok (some version)) ::
          (lookups ++ asked ++ files))
        (Service.attachExamples (request.exampleLimit s.settings.context) examples result)

/-- How a request for a context goes: what is asked and answered, and the response. -/
inductive ContextRun (s : Service σ) (request : ContextRequest) :
    List Exchange → ContextResponse → Prop
  | unnamed : request.subject? s.catalog (s.parseQuery request.query) = none →
      ContextRun s request []
        { ContextResponse.opening request (s.parseQuery request.query) with
          notes := Note.noFramework }
  | named {subject exchanges r} :
      request.subject? s.catalog (s.parseQuery request.query) = some subject →
      SubjectRun s request (s.parseQuery request.query) subject
        ((ContextResponse.opening request (s.parseQuery request.query)).about subject)
        exchanges r →
      ContextRun s request exchanges r

namespace Service

theorem communityTypes_recorded (s : Service σ) (package : Text) (state : σ)
    (log : List Exchange) (h : definitelyTypedName package ≠ package) : ∃ exchanges,
    s.recorded.communityTypes package ⟨state, log⟩ =
      ((s.communityTypes package state).1, ⟨(s.communityTypes package state).2, log ++ exchanges⟩) ∧
    CommunityLookup (definitelyTypedName package) exchanges (s.communityTypes package state).1 := by
  rcases looked : s.sources.version (definitelyTypedName package) none state with
    ⟨e | _ | version, state'⟩
  · simp only [communityTypes, if_neg h, recorded_version, looked]
    exact ⟨_, rfl, .lookupFailed e⟩
  · simp only [communityTypes, if_neg h, recorded_version, looked]
    exact ⟨_, rfl, .unpublished⟩
  · rcases asked : s.sources.types (definitelyTypedName package) version state' with
      ⟨e | _ | file, state''⟩ <;>
      simp only [communityTypes, if_neg h, recorded_version, recorded_types, looked, asked,
        List.append_assoc, List.cons_append, List.nil_append]
    · exact ⟨_, rfl, .failed version e⟩
    · exact ⟨_, rfl, .missing version⟩
    · exact ⟨_, rfl, .found version file⟩

theorem resolveTypes_recorded (s : Service σ) (package version : Text) (state : σ)
    (log : List Exchange) : ∃ exchanges,
    s.recorded.resolveTypes package version ⟨state, log⟩ =
      ((s.resolveTypes package version state).1,
        ⟨(s.resolveTypes package version state).2, log ++ exchanges⟩) ∧
    Resolution package version exchanges (s.resolveTypes package version state).1 := by
  rcases asked : s.sources.types package version state with ⟨e | _ | file, state'⟩ <;>
    simp only [resolveTypes, recorded_types, asked]
  · exact ⟨_, rfl, .failed e⟩
  · by_cases h : definitelyTypedName package = package
    · simp only [communityTypes, if_pos h]
      exact ⟨_, rfl, .untyped h⟩
    · obtain ⟨exchanges, heard, lookup⟩ :=
        s.communityTypes_recorded package state' (log ++ [.types package version (.ok none)]) h
      rw [heard, List.append_assoc]
      exact ⟨_, rfl, .community h lookup⟩
  · exact ⟨_, rfl, .own file⟩

theorem findExamples_recorded (s : Service σ) (wanted : Bool) (framework concept : Text)
    (state : σ) (log : List Exchange) : ∃ exchanges,
    s.recorded.findExamples wanted framework concept ⟨state, log⟩ =
      ((s.findExamples wanted framework concept state).1,
        ⟨(s.findExamples wanted framework concept state).2, log ++ exchanges⟩) ∧
    ExampleLookup framework concept wanted exchanges
      (s.findExamples wanted framework concept state).1 := by
  cases wanted with
  | false => exact ⟨[], by rw [List.append_nil]; rfl, .unwanted⟩
  | true => exact ⟨_, rfl, .wanted _⟩

theorem searchBarrels_main (s : Service σ) (package version path concept : Text)
    (paths : List Text) (session : Session σ) :
    s.searchBarrels package version path concept (path :: paths) session =
      s.searchBarrels package version path concept paths session := by
  rw [searchBarrels, if_pos rfl]

theorem searchBarrels_cons (s : Service σ) (package version concept : Text) {path mainPath : Text}
    (h : path ≠ mainPath) (paths : List Text) (session : Session σ) :
    s.searchBarrels package version mainPath concept (path :: paths) session =
      let asked := s.sources.file package version path session.outside
      match { session with outside := asked.2 }.extractAnswer asked.1 concept with
      | (some found, session) => (some found, session)
      | (none, session) => s.searchBarrels package version mainPath concept paths session := by
  rw [searchBarrels]
  exact if_neg h

theorem searchBarrels_recorded (s : Service σ) (package version mainPath concept : Text)
    (paths : List Text) (session : Session σ) (log : List Exchange) : ∃ exchanges,
    s.recorded.searchBarrels package version mainPath concept paths (session.recording log) =
      ((s.searchBarrels package version mainPath concept paths session).1,
        (s.searchBarrels package version mainPath concept paths session).2.recording
          (log ++ exchanges)) ∧
    BarrelSearch package version mainPath concept paths exchanges
      (s.searchBarrels package version mainPath concept paths session).1 := by
  induction paths generalizing session log with
  | nil => exact ⟨[], by rw [List.append_nil]; rfl, .exhausted⟩
  | cons path paths ih =>
      by_cases h : path = mainPath
      · subst h
        obtain ⟨exchanges, heard, search⟩ := ih session log
        rw [searchBarrels_main, searchBarrels_main]
        exact ⟨exchanges, heard, .main search⟩
      · rcases asked : s.sources.file package version path session.outside with ⟨answer, state⟩
        rcases read : Session.extractAnswer { session with outside := state } answer concept with
          ⟨result, session'⟩
        have signature : foundIn? concept answer = result := by
          rw [← Session.extractAnswer_fst { session with outside := state }, read]
        have heard : Session.extractAnswer
            ⟨⟨state, log ++ [.file package version path answer]⟩, session.reader⟩ answer concept =
            (result, session'.recording (log ++ [.file package version path answer])) := by
          have same := Session.extractAnswer_recording { session with outside := state }
            (log ++ [.file package version path answer]) answer concept
          rwa [read] at same
        rw [searchBarrels_cons _ _ _ _ h, searchBarrels_cons _ _ _ _ h]
        simp only [Session.recording_outside, recorded_file, asked, read]
        rw [show (session.recording log).reader = session.reader from rfl, heard]
        cases result with
        | some found => exact ⟨_, rfl, .found h signature⟩
        | none =>
            -- The search goes on in the session that has read the file, with one more exchange.
            obtain ⟨exchanges, rest, search⟩ :=
              ih session' (log ++ [.file package version path answer])
            simp only
            rw [rest, List.append_assoc]
            exact ⟨_, rfl, .passed h signature search⟩

theorem attachSimilar_recorded (s : Service σ) (types : ResolvedTypes) (concept : Text)
    (r : ContextResponse) (session : Session σ) (log : List Exchange) :
    s.recorded.attachSimilar types concept r (session.recording log) =
      ((s.attachSimilar types concept r session).1,
        (s.attachSimilar types concept r session).2.recording log) ∧
    SimilarNames s types concept r (s.attachSimilar types concept r session).1 := by
  rcases found : session.search types.file concept s.settings.context.similarApiLimit with
    ⟨hits, session'⟩
  have first : (types.file.hits concept).take s.settings.context.similarApiLimit = hits := by
    rw [← session.search_fst, found]
  have heard : (session.recording log).search types.file concept
      s.settings.context.similarApiLimit = (hits, session'.recording log) := by
    rw [Session.search_recording, found]
  simp only [attachSimilar, recorded_settings, heard, found]
  cases hits with
  | nil => exact ⟨rfl, .none first⟩
  | cons hit hits => exact ⟨rfl, .some first (List.cons_ne_nil hit hits)⟩

theorem attachSignature_recorded (s : Service σ) (types : ResolvedTypes) (concept version : Text)
    (r : ContextResponse) (session : Session σ) (log : List Exchange) : ∃ exchanges,
    s.recorded.attachSignature types concept version r (session.recording log) =
      ((s.attachSignature types concept version r session).1,
        (s.attachSignature types concept version r session).2.recording (log ++ exchanges)) ∧
    SignatureLookup s types concept version r exchanges
      (s.attachSignature types concept version r session).1 := by
  rcases read : session.extract types.file concept with ⟨api, session'⟩
  have signature : types.file.signature? concept = api := by rw [← session.extract_fst, read]
  have heard : (session.recording log).extract types.file concept = (api, session'.recording log) :=
    by rw [Session.extract_recording, read]
  simp only [attachSignature, heard, read]
  cases api with
  | some api => exact ⟨[], by rw [List.append_nil], .main signature⟩
  | none =>
      obtain ⟨exchanges, same, search⟩ := s.searchBarrels_recorded types.package
        (types.versionOr version) types.file.path concept
        (s.sources.barrelPaths types.package concept) session' log
      rcases result : s.searchBarrels types.package (types.versionOr version) types.file.path
        concept (s.sources.barrelPaths types.package concept) session' with ⟨found, session''⟩
      rw [result] at same search
      simp only [recorded_barrelPaths, same, result]
      cases found with
      | some found => exact ⟨_, rfl, .barrel signature search⟩
      | none =>
          obtain ⟨similar, names⟩ := s.attachSimilar_recorded types concept (r.crediting types)
            session'' (log ++ exchanges)
          exact ⟨exchanges, similar, .similar signature search names⟩

theorem attachTypes_recorded (s : Service σ) (package version concept : Text)
    (types : Except Failure (Option ResolvedTypes)) (r : ContextResponse) (session : Session σ)
    (log : List Exchange) : ∃ exchanges,
    s.recorded.attachTypes package version concept types r (session.recording log) =
      ((s.attachTypes package version concept types r session).1,
        (s.attachTypes package version concept types r session).2.recording (log ++ exchanges)) ∧
    Attachment s package version concept r types exchanges
      (s.attachTypes package version concept types r session).1 := by
  rcases types with e | _ | types
  · exact ⟨[], by rw [List.append_nil]; rfl, .failed e⟩
  · exact ⟨[], by rw [List.append_nil]; rfl, .missing⟩
  · obtain ⟨exchanges, heard, lookup⟩ :=
      s.attachSignature_recorded types concept version r session log
    exact ⟨exchanges, heard, .found lookup⟩

theorem contextAt_recorded (s : Service σ) (request : ContextRequest) (subject : Subject)
    (concept version : Text) (r : ContextResponse) (session : Session σ) (log : List Exchange) :
    ∃ lookups types asked examples files result,
    s.recorded.contextAt request subject concept version r (session.recording log) =
      ((s.contextAt request subject concept version r session).1,
        (s.contextAt request subject concept version r session).2.recording
          (log ++ (lookups ++ asked ++ files))) ∧
    (s.contextAt request subject concept version r session).1 =
      attachExamples (request.exampleLimit s.settings.context) examples result ∧
    Resolution subject.package version lookups types ∧
    ExampleLookup subject.framework concept request.wantsExamples asked examples ∧
    Attachment s subject.package version concept { r with version := some version } types files
      result := by
  obtain ⟨lookups, heard, resolution⟩ :=
    s.resolveTypes_recorded subject.package version session.outside log
  rcases resolved : s.resolveTypes subject.package version session.outside with ⟨types, state⟩
  rw [resolved] at heard resolution
  obtain ⟨asked, told, examples⟩ := s.findExamples_recorded request.wantsExamples
    subject.framework concept state (log ++ lookups)
  rcases found : s.findExamples request.wantsExamples subject.framework concept state with
    ⟨shown, state'⟩
  rw [found] at told examples
  obtain ⟨files, read, attachment⟩ := s.attachTypes_recorded subject.package version concept types
    { r with version := some version } { session with outside := state' } (log ++ lookups ++ asked)
  refine ⟨lookups, types, asked, shown, files, _, ?_, ?_, resolution, examples, attachment⟩
  · simp only [contextAt, Session.recording_outside, heard, told, resolved, found]
    rw [← List.append_assoc, ← List.append_assoc]
    exact congrArg (fun answer : ContextResponse × Session (Recorded σ) =>
      (attachExamples (request.exampleLimit s.settings.context) shown answer.1, answer.2)) read
  · simp only [contextAt, resolved, found]

theorem contextOf_recorded (s : Service σ) (request : ContextRequest) (parsed : Query.Parsed)
    (subject : Subject) (r : ContextResponse) (session : Session σ) (log : List Exchange) :
    ∃ exchanges, s.recorded.contextOf request parsed subject r (session.recording log) =
      ((s.contextOf request parsed subject r session).1,
        (s.contextOf request parsed subject r session).2.recording (log ++ exchanges)) ∧
    SubjectRun s request parsed subject (r.about subject) exchanges
      (s.contextOf request parsed subject r session).1 := by
  by_cases h : parsed.concept = []
  · simp only [contextOf, List.isEmpty_iff, if_pos h]
    exact ⟨[], by rw [List.append_nil], .conceptless h⟩
  · rcases looked : s.sources.version subject.package (request.version? parsed) session.outside
      with ⟨e | _ | version, state⟩ <;>
      simp only [contextOf, List.isEmpty_iff, if_neg h, Session.recording_outside,
        recorded_version, looked]
    · exact ⟨_, rfl, .lookupFailed e h⟩
    · exact ⟨_, rfl, .unpublished h⟩
    · obtain ⟨lookups, types, asked, examples, files, result, heard, response, resolution, shown,
        attachment⟩ := s.contextAt_recorded request subject parsed.concept version
          (r.about subject) { session with outside := state }
          (log ++ [.version subject.package (request.version? parsed) (.ok (some version))])
      refine ⟨.version subject.package (request.version? parsed) (.ok (some version)) ::
        (lookups ++ asked ++ files), ?_, ?_⟩
      · rw [List.append_assoc] at heard
        exact heard
      · rw [response]
        exact .resolved h resolution shown attachment

theorem context_recorded (s : Service σ) (request : ContextRequest) (session : Session σ)
    (log : List Exchange) : ∃ exchanges,
    s.recorded.context request (session.recording log) =
      ((s.context request session).1,
        (s.context request session).2.recording (log ++ exchanges)) ∧
    ContextRun s request exchanges (s.context request session).1 := by
  rcases named : request.subject? s.catalog (s.parseQuery request.query) with _ | subject <;>
    simp only [context, recorded_catalog, recorded_parseQuery, named]
  · exact ⟨[], by rw [List.append_nil], .unnamed named⟩
  · obtain ⟨exchanges, heard, run⟩ := s.contextOf_recorded request (s.parseQuery request.query)
      subject (ContextResponse.opening request (s.parseQuery request.query)) session log
    exact ⟨exchanges, heard, .named named run⟩

/-- What a request for a context asks, with the answers, in order. -/
def exchanges (s : Service σ) (request : ContextRequest) (session : Session σ) : List Exchange :=
  (s.recorded.context request (session.recording [])).2.outside.exchanges

/-- Every request goes in one of the ways that runs can go. -/
theorem contextRun (s : Service σ) (request : ContextRequest) (session : Session σ) :
    ContextRun s request (s.exchanges request session) (s.context request session).1 := by
  obtain ⟨exchanges, heard, run⟩ := s.context_recorded request session []
  rw [Service.exchanges, heard]
  exact run

end Service
end ApiReference
