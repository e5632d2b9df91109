import ApiReference.Json.Printer
import ApiReference.Proofs.Service.Growth
import ApiReference.Web.Sources

/-!
# What notes report

A failed question is reported by a note with the message of the failure, unless it was a question
for a further declaration file. Such a failure leaves no trace: the answer is the one that would
have been given if there were no such file.
-/

namespace ApiReference
open ApiReference.Package (CodeExample)

def Exchange.failure? : Exchange → Option Failure
  | .version _ _ (.error e) | .types _ _ (.error e) | .file _ _ _ (.error e)
  | .examples _ _ (.error e) => some e
  | _ => none

/-- Whether a note has the message of a failure in it. -/
def ContextResponse.Reports (r : ContextResponse) (e : Failure) : Prop :=
  ∃ note ∈ r.notes, e.message <:+: note

instance (r : ContextResponse) (e : Failure) : Decidable (r.Reports e) :=
  inferInstanceAs (Decidable (∃ note ∈ r.notes, e.message <:+: note))

variable {σ : Type} {s : Service σ} {e : Failure}

namespace ContextResponse
variable {r r' : ContextResponse}

theorem Extends.reports (h : r.Extends r') (reported : r.Reports e) : r'.Reports e := by
  obtain ⟨note, member, message⟩ := reported
  exact ⟨note, h.notes.subset member, message⟩

theorem reports_note (r : ContextResponse) {note : Text} (h : e.message <:+: note) :
    (r.note note).Reports e :=
  ⟨note, List.mem_append_right _ (List.mem_singleton_self note), h⟩

end ContextResponse

theorem Note.message_versionFailed (package : Text) (e : Failure) :
    e.message <:+: versionFailed package e := (List.suffix_append _ _).isInfix

theorem Note.message_typesFailed (package : Text) (e : Failure) :
    e.message <:+: typesFailed package e := (List.suffix_append _ _).isInfix

theorem Note.message_examplesFailed (e : Failure) : e.message <:+: examplesFailed e :=
  (List.suffix_append _ _).isInfix

/-- A failure on the way to the community's declarations is what comes of it. -/
theorem CommunityLookup.failed_of_mem {fallback : Text} {exchanges : List Exchange}
    {types : Except Failure (Option ResolvedTypes)}
    (h : CommunityLookup fallback exchanges types) :
    ∀ x ∈ exchanges, x.failure? = some e → types = .error e := by
  cases h <;> simp [Exchange.failure?]

/-- A failure on the way to the declarations is what comes of it. -/
theorem Resolution.failed_of_mem {package version : Text} {exchanges : List Exchange}
    {types : Except Failure (Option ResolvedTypes)}
    (h : Resolution package version exchanges types) :
    ∀ x ∈ exchanges, x.failure? = some e → types = .error e := by
  cases h with
  | failed e => simp [Exchange.failure?]
  | own file => simp [Exchange.failure?]
  | untyped same => simp [Exchange.failure?]
  | community other lookup =>
      intro x member failed
      rcases List.mem_cons.mp member with rfl | member
      · cases failed
      · exact lookup.failed_of_mem x member failed

theorem ExampleLookup.failed_of_mem {framework concept : Text} {wanted : Bool}
    {exchanges : List Exchange} {answer : Except Failure (List CodeExample)}
    (h : ExampleLookup framework concept wanted exchanges answer) :
    ∀ x ∈ exchanges, x.failure? = some e → answer = .error e := by
  cases h with
  | unwanted => exact fun x member => nomatch member
  | wanted answer => cases answer <;> simp [Exchange.failure?]

theorem Attachment.reports {package version concept : Text} {r result : ContextResponse}
    {exchanges : List Exchange}
    (h : Attachment s package version concept r (.error e) exchanges result) :
    result.Reports e := by
  cases h with
  | failed => exact r.reports_note (Note.message_typesFailed package e)

theorem reports_attachExamples (limit : Nat) (r : ContextResponse) :
    (Service.attachExamples limit (.error e) r).Reports e :=
  r.reports_note (Note.message_examplesFailed e)

theorem SubjectRun.reports {request : ContextRequest} {parsed : Query.Parsed} {subject : Subject}
    {r result : ContextResponse} {exchanges : List Exchange}
    (h : SubjectRun s request parsed subject r exchanges result) :
    ∀ x ∈ exchanges, x.isFile = false → x.failure? = some e → result.Reports e := by
  intro x member notFile failed
  cases h with
  | conceptless noConcept => cases member
  | lookupFailed e' concept =>
      rw [List.mem_singleton.mp member] at failed
      cases failed
      exact r.reports_note (Note.message_versionFailed subject.package e)
  | unpublished concept =>
      rw [List.mem_singleton.mp member] at failed
      cases failed
  | @resolved version lookups types asked examples files answered concept resolution shown
      attachment =>
      simp only [List.mem_cons, List.mem_append, or_assoc] at member
      rcases member with rfl | member | member | member
      · cases failed
      · rw [resolution.failed_of_mem x member failed] at attachment
        exact (extends_attachExamples _ _ _).reports attachment.reports
      · rw [shown.failed_of_mem x member failed]
        exact reports_attachExamples _ _
      · rw [attachment.kinds x member] at notFile
        cases notFile

theorem ContextRun.reports {request : ContextRequest} {r : ContextResponse}
    {exchanges : List Exchange} (h : ContextRun s request exchanges r) :
    ∀ x ∈ exchanges, x.isFile = false → x.failure? = some e → r.Reports e := by
  cases h with
  | unnamed unknown => exact fun x member => nomatch member
  | named known run => exact run.reports

/-- An answer with nothing in the place of a failure. -/
def hush : Except Failure (Option TypeFile) → Except Failure (Option TypeFile)
  | .error _ => .ok none
  | answer => answer

/-- The sources with no further file in the place of one that cannot be had. -/
def Sources.hushed (s : Sources σ) : Sources σ :=
  { s with file := fun package version path state =>
      (hush (s.file package version path state).1, (s.file package version path state).2) }

/-- The service that is not told why a further file cannot be had. -/
def Service.hushed (s : Service σ) : Service σ := ⟨s.settings, s.sources.hushed⟩

theorem Session.extractAnswer_hush (session : Session σ)
    (answer : Except Failure (Option TypeFile)) (concept : Text) :
    session.extractAnswer (hush answer) concept = session.extractAnswer answer concept := by
  cases answer with
  | error e => rfl
  | ok found => rfl

namespace Service

theorem hushed_file (s : Service σ) (package version path : Text) (state : σ) :
    s.hushed.sources.file package version path state =
      (hush (s.sources.file package version path state).1,
        (s.sources.file package version path state).2) := rfl

theorem hushed_searchBarrels (s : Service σ) (package version mainPath concept : Text)
    (paths : List Text) (session : Session σ) :
    s.hushed.searchBarrels package version mainPath concept paths session =
      s.searchBarrels package version mainPath concept paths session := by
  induction paths generalizing session with
  | nil => rfl
  | cons path paths ih =>
      by_cases h : path = mainPath
      · rw [h, searchBarrels_main, searchBarrels_main, ih]
      · rw [searchBarrels_cons _ _ _ _ h, searchBarrels_cons _ _ _ _ h]
        simp only [hushed_file, Session.extractAnswer_hush, ih]

theorem hushed_attachSignature (s : Service σ) (types : ResolvedTypes) (concept version : Text)
    (r : ContextResponse) (session : Session σ) :
    s.hushed.attachSignature types concept version r session =
      s.attachSignature types concept version r session := by
  simp only [attachSignature, hushed_searchBarrels]
  rfl

theorem hushed_attachTypes (s : Service σ) (package version concept : Text)
    (types : Except Failure (Option ResolvedTypes)) (r : ContextResponse) (session : Session σ) :
    s.hushed.attachTypes package version concept types r session =
      s.attachTypes package version concept types r session := by
  rcases types with e | _ | types
  · rfl
  · rfl
  · exact s.hushed_attachSignature types concept version r session

theorem hushed_contextOf (s : Service σ) (request : ContextRequest) (parsed : Query.Parsed)
    (subject : Subject) (r : ContextResponse) (session : Session σ) :
    s.hushed.contextOf request parsed subject r session =
      s.contextOf request parsed subject r session := by
  simp only [contextOf, contextAt, hushed_attachTypes]
  rfl

/-- Every failure is reported by a note with its message, except that a further file which cannot be
had is passed over as if there were no such file. -/
theorem context_reports (s : Service σ) (request : ContextRequest) (session : Session σ) :
    (∀ x ∈ s.exchanges request session, x.isFile = false →
      ∀ e, x.failure? = some e → (s.context request session).1.Reports e) ∧
    s.hushed.context request session = s.context request session := by
  constructor
  · intro x member notFile e failed
    exact (s.contextRun request session).reports x member notFile failed
  · unfold context
    simp only [hushed_contextOf]
    rfl

end Service

namespace Outage
open ApiReference.Json (Value)

def settings : Settings :=
  { fetch := {
      registryUrl := "http://registry.test".toList
      cdnUrl := "http://cdn.test".toList } }

/-- The address of a file that cannot be had at the moment. -/
def address : String := "http://cdn.test/next@15.0.0/dist/client/components/navigation.d.ts"

def pages : List (Text × Nat × Text) :=
  [("http://registry.test/next".toList, 200,
      Value.compact (.ofFields [("dist-tags", .ofFields [("latest", .ofString "15.0.0")])])),
   ("http://cdn.test/next@15.0.0/package.json".toList, 200,
      Value.compact (.ofFields [("types", .ofString "index.d.ts")])),
   ("http://cdn.test/next@15.0.0/index.d.ts".toList, 200,
      "export declare function notFound(): never;".toList),
   (address.toList, 500, [])]

def server : Web.Server Unit := fun request state =>
  match pages.lookup request.url with
  | some (status, body) => (.answered status (.ok body), state)
  | none => (.answered Web.notFound (.ok []), state)

def service : Service (Web.Connection Unit) := ⟨settings, Web.sources server settings⟩

def session : Session (Web.Connection Unit) := Session.start settings ⟨(), []⟩

def request : ContextRequest :=
  { query := "next useRouter".toList, includeExamples := some false }

def failure : Failure :=
  .fetch ("HTTP request failed: GET ".toList ++ address.toList ++
    " returned 500 Internal Server Error".toList)

/-- The file that may hold the concept fails to arrive, and no note says so. -/
theorem file_failure_unreported :
    (∃ x ∈ service.exchanges request session, x.failure? = some failure) ∧
      ¬ (service.context request session).1.Reports failure := by
  decide +kernel

end Outage
end ApiReference
