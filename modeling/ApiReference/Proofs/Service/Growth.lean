import ApiReference.Proofs.Service.Conversation

/-!
# How a response grows

Once its version is known, a response keeps what it is about, and it keeps its notes: whatever comes
of the declarations and of the examples, notes are only added. Until declarations are looked at it
is bare. Also, which exchange belongs to which stage of a run.
-/

namespace ApiReference
open ApiReference.Package (CodeExample)

/-- Whether an exchange is about a further declaration file. -/
def Exchange.isFile : Exchange → Bool
  | .file .. => true
  | _ => false

def Exchange.isExamples : Exchange → Bool
  | .examples .. => true
  | _ => false

theorem Exchange.isExamples_eq_false {e : Exchange} (h : e.isFile = true) :
    e.isExamples = false := by
  cases e with
  | file => rfl
  | _ => cases h

theorem Exchange.isFile_eq_false {e : Exchange} (h : e.isExamples = true) : e.isFile = false := by
  cases e with
  | examples => rfl
  | _ => cases h

variable {σ : Type} {s : Service σ}

theorem CommunityLookup.kinds {fallback : Text} {exchanges : List Exchange}
    {types : Except Failure (Option ResolvedTypes)}
    (h : CommunityLookup fallback exchanges types) :
    ∀ e ∈ exchanges, e.isFile = false ∧ e.isExamples = false := by
  cases h <;> simp [Exchange.isFile, Exchange.isExamples]

theorem Resolution.kinds {package version : Text} {exchanges : List Exchange}
    {types : Except Failure (Option ResolvedTypes)}
    (h : Resolution package version exchanges types) :
    ∀ e ∈ exchanges, e.isFile = false ∧ e.isExamples = false := by
  cases h with
  | failed e => simp [Exchange.isFile, Exchange.isExamples]
  | own file => simp [Exchange.isFile, Exchange.isExamples]
  | untyped same => simp [Exchange.isFile, Exchange.isExamples]
  | community other lookup => exact List.forall_mem_cons.mpr ⟨⟨rfl, rfl⟩, lookup.kinds⟩

theorem BarrelSearch.kinds {package version mainPath concept : Text} {paths : List Text}
    {exchanges : List Exchange} {result : Option (Declaration.ApiSignature × TypeFile)}
    (h : BarrelSearch package version mainPath concept paths exchanges result) :
    ∀ e ∈ exchanges, e.isFile = true := by
  induction h with
  | exhausted => exact fun e member => nomatch member
  | main search ih => exact ih
  | passed other nothing search ih => exact List.forall_mem_cons.mpr ⟨rfl, ih⟩
  | found other signature => exact List.forall_mem_singleton.mpr rfl

theorem SignatureLookup.kinds {types : ResolvedTypes} {concept version : Text}
    {r result : ContextResponse} {exchanges : List Exchange}
    (h : SignatureLookup s types concept version r exchanges result) :
    ∀ e ∈ exchanges, e.isFile = true := by
  cases h with
  | main signature => exact fun e member => nomatch member
  | barrel nothing search => exact search.kinds
  | similar nothing search names => exact search.kinds

theorem Attachment.kinds {package version concept : Text} {r result : ContextResponse}
    {types : Except Failure (Option ResolvedTypes)} {exchanges : List Exchange}
    (h : Attachment s package version concept r types exchanges result) :
    ∀ e ∈ exchanges, e.isFile = true := by
  cases h with
  | failed e => exact fun e member => nomatch member
  | missing => exact fun e member => nomatch member
  | found lookup => exact lookup.kinds

theorem ExampleLookup.kinds {framework concept : Text} {wanted : Bool} {exchanges : List Exchange}
    {answer : Except Failure (List CodeExample)}
    (h : ExampleLookup framework concept wanted exchanges answer) :
    ∀ e ∈ exchanges, e.isExamples = true := by
  cases h with
  | unwanted => exact fun e member => nomatch member
  | wanted answer => exact List.forall_mem_singleton.mpr rfl

/-- A response with the same subject, version and concept, and with more notes. -/
structure ContextResponse.Extends (r r' : ContextResponse) : Prop where
  framework : r'.framework = r.framework
  package : r'.package = r.package
  version : r'.version = r.version
  concept : r'.concept = r.concept
  notes : r.notes <+: r'.notes

namespace ContextResponse
variable {r r' r'' : ContextResponse}

theorem Extends.refl (r : ContextResponse) : r.Extends r := ⟨rfl, rfl, rfl, rfl, List.prefix_rfl⟩

theorem Extends.trans (h : r.Extends r') (h' : r'.Extends r'') : r.Extends r'' :=
  ⟨h'.framework.trans h.framework, h'.package.trans h.package, h'.version.trans h.version,
    h'.concept.trans h.concept, h.notes.trans h'.notes⟩

theorem extends_note (r : ContextResponse) (note : Text) : r.Extends (r.note note) :=
  ⟨rfl, rfl, rfl, rfl, List.prefix_append _ _⟩

theorem extends_answering (r : ContextResponse) (api : Declaration.ApiSignature) (file : TypeFile) :
    r.Extends (r.answering api file) := ⟨rfl, rfl, rfl, rfl, List.prefix_rfl⟩

theorem extends_suggesting (r : ContextResponse) (hits : List Declaration.Hit) (file : TypeFile) :
    r.Extends (r.suggesting hits file) := ⟨rfl, rfl, rfl, rfl, List.prefix_rfl⟩

theorem extends_crediting (r : ContextResponse) (types : ResolvedTypes) :
    r.Extends (r.crediting types) := by
  unfold crediting
  split
  · exact r.extends_note _
  · exact .refl r

/-- No answer yet. -/
structure Bare (r : ContextResponse) : Prop where
  api : r.api = none
  typesSource : r.typesSource = none
  examples : r.examples = []
  relatedApis : r.relatedApis = []

theorem bare_opening (request : ContextRequest) (parsed : Query.Parsed) :
    (opening request parsed).Bare := ⟨rfl, rfl, rfl, rfl⟩

namespace Bare

theorem note (h : r.Bare) (note : Text) : (r.note note).Bare :=
  ⟨h.api, h.typesSource, h.examples, h.relatedApis⟩

theorem about (h : r.Bare) (subject : Subject) : (r.about subject).Bare :=
  ⟨h.api, h.typesSource, h.examples, h.relatedApis⟩

theorem versioned (h : r.Bare) (version : Text) :
    ContextResponse.Bare { r with version := some version } :=
  ⟨h.api, h.typesSource, h.examples, h.relatedApis⟩

theorem crediting (h : r.Bare) (types : ResolvedTypes) : (r.crediting types).Bare := by
  unfold ContextResponse.crediting
  split
  · exact h.note _
  · exact h

end Bare

end ContextResponse

theorem SimilarNames.extends {types : ResolvedTypes} {concept : Text} {r result : ContextResponse}
    (h : SimilarNames s types concept r result) : r.Extends result := by
  cases h with
  | none empty => exact r.extends_note _
  | some first nonempty => exact (r.extends_note _).trans (ContextResponse.extends_suggesting _ _ _)

theorem SignatureLookup.extends {types : ResolvedTypes} {concept version : Text}
    {r result : ContextResponse} {exchanges : List Exchange}
    (h : SignatureLookup s types concept version r exchanges result) : r.Extends result := by
  have credited := r.extends_crediting types
  cases h with
  | main signature => exact credited.trans (ContextResponse.extends_answering _ _ _)
  | barrel nothing search =>
      exact credited.trans ((ContextResponse.extends_note _ _).trans
        (ContextResponse.extends_answering _ _ _))
  | similar nothing search names => exact credited.trans names.extends

theorem Attachment.extends {package version concept : Text} {r result : ContextResponse}
    {types : Except Failure (Option ResolvedTypes)} {exchanges : List Exchange}
    (h : Attachment s package version concept r types exchanges result) : r.Extends result := by
  cases h with
  | failed e => exact r.extends_note _
  | missing => exact r.extends_note _
  | found lookup => exact lookup.extends

theorem extends_attachExamples (limit : Nat) (answer : Except Failure (List CodeExample))
    (r : ContextResponse) : r.Extends (Service.attachExamples limit answer r) := by
  cases answer with
  | ok found => exact ⟨rfl, rfl, rfl, rfl, List.prefix_rfl⟩
  | error e => exact r.extends_note _

/-- A response stays about its subject's package. -/
theorem SubjectRun.package {request : ContextRequest} {parsed : Query.Parsed} {subject : Subject}
    {r result : ContextResponse} {exchanges : List Exchange}
    (h : SubjectRun s request parsed subject r exchanges result) : result.package = r.package := by
  cases h with
  | conceptless noConcept => rfl
  | lookupFailed e concept => rfl
  | unpublished concept => rfl
  | resolved concept resolution shown attachment =>
      exact (attachment.extends.trans (extends_attachExamples _ _ _)).package

end ApiReference
