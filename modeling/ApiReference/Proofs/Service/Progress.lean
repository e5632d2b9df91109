import ApiReference.Proofs.Query.ConceptSources
import ApiReference.Proofs.Service.Growth
import ApiReference.Service.World

/-!
# Requests that get past their query

A response has the note that no API was found in the query exactly if the request is about some
framework and its query has no token. All other notes begin otherwise, whatever texts are put into
them. So a framework that is detected in a query is always asked about. Main statements:
`Service.conceptless_iff`, `Service.concept_present`.
-/

namespace ApiReference
open ApiReference.Package (CodeExample)

/-- Whether a response has the note that no API was found in the query. -/
def ContextResponse.Conceptless (r : ContextResponse) : Prop :=
  ∃ framework, Note.noConcept framework ∈ r.notes

theorem Note.take_noConcept (framework : Text) :
    (Note.noConcept framework).take 4 = "No A".toList := rfl

namespace ContextResponse
variable {r : ContextResponse}

/-- Four characters tell the note from the others. -/
theorem conceptless_note {note : Text} (beginning : Text) (begins : note.take 4 = beginning)
    (other : beginning ≠ "No A".toList) : (r.note note).Conceptless ↔ r.Conceptless := by
  constructor
  · rintro ⟨framework, member⟩
    rcases List.mem_append.1 member with before | last
    · exact ⟨framework, before⟩
    · obtain rfl := List.mem_singleton.1 last
      exact absurd begins.symm other
  · rintro ⟨framework, member⟩
    exact ⟨framework, List.mem_append_left _ member⟩

theorem conceptless_crediting (types : ResolvedTypes) :
    (r.crediting types).Conceptless ↔ r.Conceptless := by
  unfold crediting
  split
  · exact conceptless_note "Usin".toList rfl (by decide)
  · rfl

theorem conceptless_attachExamples (limit : Nat) (answer : Except Failure (List CodeExample)) :
    (Service.attachExamples limit answer r).Conceptless ↔ r.Conceptless := by
  cases answer with
  | ok found => rfl
  | error e => exact conceptless_note "Exam".toList rfl (by decide)

end ContextResponse

variable {σ : Type} {s : Service σ} {r result : ContextResponse} {exchanges : List Exchange}

theorem SimilarNames.conceptless_iff {types : ResolvedTypes} {concept : Text}
    (h : SimilarNames s types concept r result) : result.Conceptless ↔ r.Conceptless := by
  cases h with
  | none empty => exact ContextResponse.conceptless_note "No d".toList rfl (by decide)
  | some first nonempty => exact ContextResponse.conceptless_note "No e".toList rfl (by decide)

theorem SignatureLookup.conceptless_iff {types : ResolvedTypes} {concept version : Text}
    (h : SignatureLookup s types concept version r exchanges result) :
    result.Conceptless ↔ r.Conceptless := by
  refine Iff.trans ?_ (ContextResponse.conceptless_crediting types)
  cases h with
  | main signature => rfl
  | barrel nothing search => exact ContextResponse.conceptless_note "Foun".toList rfl (by decide)
  | similar nothing search names => exact names.conceptless_iff

theorem Attachment.conceptless_iff {package version concept : Text}
    {types : Except Failure (Option ResolvedTypes)}
    (h : Attachment s package version concept r types exchanges result) :
    result.Conceptless ↔ r.Conceptless := by
  cases h with
  | failed e => exact ContextResponse.conceptless_note "Fetc".toList rfl (by decide)
  | missing => exact ContextResponse.conceptless_note "No t".toList rfl (by decide)
  | found lookup => exact lookup.conceptless_iff

section
variable {request : ContextRequest} {parsed : Query.Parsed} {subject : Subject}

theorem SubjectRun.conceptless_iff (h : SubjectRun s request parsed subject r exchanges result) :
    result.Conceptless ↔ r.Conceptless ∨ parsed.concept = [] := by
  cases h with
  | conceptless noConcept =>
      rw [eq_true noConcept, or_true, iff_true]
      exact ⟨subject.framework, List.mem_append_right _ (List.mem_singleton_self _)⟩
  | lookupFailed e concept =>
      rw [or_iff_left concept]
      exact ContextResponse.conceptless_note "Vers".toList rfl (by decide)
  | unpublished concept =>
      rw [or_iff_left concept]
      exact ContextResponse.conceptless_note "Coul".toList rfl (by decide)
  | resolved concept resolution shown attachment =>
      rw [or_iff_left concept, ContextResponse.conceptless_attachExamples]
      exact attachment.conceptless_iff

/-- With a concept, the first question is for the version. -/
theorem SubjectRun.asks_version (h : SubjectRun s request parsed subject r exchanges result)
    (concept : parsed.concept ≠ []) : ∃ answer rest,
      exchanges = .version subject.package (request.version? parsed) answer :: rest := by
  cases h with
  | conceptless noConcept => exact absurd noConcept concept
  | lookupFailed e => exact ⟨.error e, [], rfl⟩
  | unpublished => exact ⟨.ok none, [], rfl⟩
  | @resolved version => exact ⟨.ok (some version), _, rfl⟩

theorem ContextRun.conceptless_iff (h : ContextRun s request exchanges r) :
    r.Conceptless ↔ (request.subject? s.catalog (s.parseQuery request.query)).isSome = true ∧
      (s.parseQuery request.query).concept = [] := by
  cases h with
  | unnamed unknown =>
      rw [unknown]
      refine ⟨?_, fun known => nomatch known.1⟩
      rintro ⟨framework, member⟩
      have other : ∀ note ∈ Note.noFramework, note.take 4 ≠ "No A".toList := by decide
      exact absurd (Note.take_noConcept framework) (other _ member)
  | named known run =>
      rw [known, run.conceptless_iff, Option.isSome_some, eq_self, true_and]
      exact or_iff_right fun ⟨framework, member⟩ => nomatch member

theorem ContextRun.asks_version (h : ContextRun s request exchanges r)
    (about : request.subject? s.catalog (s.parseQuery request.query) = some subject)
    (concept : (s.parseQuery request.query).concept ≠ []) : ∃ answer rest,
      exchanges = .version subject.package
        (request.version? (s.parseQuery request.query)) answer :: rest := by
  cases h with
  | unnamed unknown =>
      rw [about] at unknown
      cases unknown
  | named known run =>
      rw [about] at known
      cases known
      exact run.asks_version concept

end

namespace Service
open ApiReference.Query (parse tokens IsCamelCase IsWholeWord)

/-- A request stops for want of a concept exactly if it has a subject and its query no token. -/
theorem conceptless_iff (s : Service σ) (request : ContextRequest) (session : Session σ) :
    (s.context request session).1.Conceptless ↔
      (request.subject? s.catalog (s.parseQuery request.query)).isSome = true ∧
        tokens request.query = [] := by
  rw [(s.contextRun request session).conceptless_iff, parseQuery, Query.concept_eq_nil_iff]

/-- A framework that is detected in the query is asked about. -/
theorem asks_detected (s : Service σ) (request : ContextRequest) (session : Session σ)
    (implicit : given? request.framework = none) {target : Query.Target}
    (detected : (s.parseQuery request.query).target = some target) :
    ¬ (s.context request session).1.Conceptless ∧ ∃ answer rest,
      s.exchanges request session = .version target.package
        (request.version? (s.parseQuery request.query)) answer :: rest := by
  have concept : (s.parseQuery request.query).concept ≠ [] :=
    Query.concept_ne_nil_of_detected (Option.isSome_of_eq_some detected)
  have subject : request.subject? s.catalog (s.parseQuery request.query) =
      some ⟨target.framework, target.package⟩ := by
    rw [ContextRequest.subject?, implicit, detected]
    rfl
  have run := s.contextRun request session
  exact ⟨fun stopped => concept (run.conceptless_iff.1 stopped).2, run.asks_version subject concept⟩

/-- A query has no concept exactly if it has no token. Framework and package are known together, and
unknown exactly if no step of detection found anything. The words of a concept are tokens in lower
case, or it is the identifier found in the query, in lower case. So a request stops for want of a
concept exactly if it has a subject and its query no token, and never where its subject is detected
in the query: the version of the package is asked for. -/
theorem concept_present (catalog : Catalog) (query : Text) :
    ((parse catalog query).concept = [] ↔ tokens query = []) ∧
    (parse catalog query).framework.isSome = (parse catalog query).package.isSome ∧
    ((parse catalog query).framework = none ↔
      (parse catalog query).target.map Query.Target.step = none) ∧
    ((∀ w ∈ Text.words (parse catalog query).concept, ∃ t ∈ tokens query, w = t.lower) ∨
      ∃ h, Query.camelWord.find query = some h ∧ IsCamelCase h.text ∧ IsWholeWord h.text query ∧
        (parse catalog query).concept = Text.lower h.text) ∧
    ∀ {σ : Type} (s : Service σ) (request : ContextRequest) (session : Session σ),
      ((s.context request session).1.Conceptless ↔
        (request.subject? s.catalog (s.parseQuery request.query)).isSome = true ∧
          tokens request.query = []) ∧
      (given? request.framework = none → ∀ target,
        (s.parseQuery request.query).target = some target →
          ¬ (s.context request session).1.Conceptless ∧ ∃ answer rest,
            s.exchanges request session = .version target.package
              (request.version? (s.parseQuery request.query)) answer :: rest) := by
  refine ⟨Query.concept_eq_nil_iff, ?_, ?_, Query.concept_sources, fun s request session =>
    ⟨s.conceptless_iff request session, fun implicit target detected =>
      s.asks_detected request session implicit detected⟩⟩
  · rw [Query.Parsed.framework, Query.Parsed.package, Option.isSome_map, Option.isSome_map]
  · rw [Query.Parsed.framework, Option.map_eq_none_iff, Option.map_eq_none_iff]

end Service

/-! A query of which nothing is left but the framework, a stop word and a version. -/

namespace Leftover

def world : World := { versions := [("react".toList, ["18.2.0".toList])] }

def service : Service Unit := ⟨{}, world.sources⟩

def session : Session Unit := Session.start service.settings ()

def request : ContextRequest := { query := "react in v18".toList }

theorem concept_present_leftover :
    Query.kept service.catalog request.query = [] ∧
    ¬ (service.context request session).1.Conceptless ∧ ∃ answer rest,
      service.exchanges request session =
        .version "react".toList (some "18".toList) answer :: rest := by
  obtain ⟨-, -, -, -, each⟩ := Service.concept_present service.catalog request.query
  obtain ⟨-, detected⟩ := each service request session
  exact ⟨by decide +kernel, detected rfl ⟨"react".toList, "react".toList, .packageName⟩
    (by decide +kernel)⟩

end Leftover
end ApiReference
