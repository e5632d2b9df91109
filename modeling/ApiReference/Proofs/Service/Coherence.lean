import ApiReference.Proofs.Service.Growth

/-!
# Coherent responses

The fields of a response agree with each other, whatever the sources answered. Until its
declarations are looked at a response is bare; what comes of them settles it, and examples are
added to a settled response.
-/

namespace ApiReference
open ApiReference.Package (CodeExample)

variable {σ : Type} {s : Service σ}

namespace ContextResponse

/-- An answer, similar names in its place, or a note. -/
structure Settled (limit : Nat) (r : ContextResponse) : Prop where
  /-- Without an answer there is a note. -/
  explained : r.api = none → r.notes ≠ []
  /-- An answer has its file, and no names in its place. -/
  attributed : r.api.isSome → r.typesSource.isSome ∧ r.relatedApis = []
  /-- Names in the place of an answer have their file. -/
  suggested : r.relatedApis ≠ [] →
    r.api = none ∧ r.typesSource.isSome ∧ r.relatedApis.length ≤ limit

/-- The examples are the first ones of those that were found, and only if they are wanted. -/
structure Shown (limit : Nat) (wanted : Bool) (exchanges : List Exchange) (r : ContextResponse) :
    Prop where
  first : ∀ framework concept found,
    .examples framework concept (.ok found) ∈ exchanges → r.examples = found.take limit
  found : r.examples ≠ [] →
    ∃ framework concept found, .examples framework concept (.ok found) ∈ exchanges
  limited : r.examples.length ≤ limit
  unwanted : wanted = false → r.examples = []

/-- What the fields of a response have to do with each other and with what was answered. -/
structure Coherent (settings : ContextSettings) (request : ContextRequest)
    (exchanges : List Exchange) (r : ContextResponse) : Prop
    extends Settled settings.similarApiLimit r,
      Shown (request.exampleLimit settings) request.wantsExamples exchanges r where
  named : r.framework.isSome ↔ r.package.isSome
  /-- Nothing is known without a version. -/
  unversioned : r.version = none →
    r.api = none ∧ r.typesSource = none ∧ r.examples = [] ∧ r.relatedApis = []

variable {r : ContextResponse} {limit : Nat} {exchanges : List Exchange}

theorem note_notes_ne_nil (r : ContextResponse) (note : Text) : (r.note note).notes ≠ [] :=
  List.append_ne_nil_of_right_ne_nil _ (List.cons_ne_nil note [])

namespace Bare

/-- A note is enough. -/
theorem settled (h : r.Bare) (limit : Nat) (noted : r.notes ≠ []) : r.Settled limit where
  explained _ := noted
  attributed answered := by
    rw [h.api] at answered
    cases answered
  suggested named := absurd h.relatedApis named

theorem answering (h : r.Bare) (limit : Nat) (api : Declaration.ApiSignature) (file : TypeFile) :
    (r.answering api file).Settled limit where
  explained unanswered := nomatch unanswered
  attributed _ := ⟨rfl, h.relatedApis⟩
  suggested named := absurd h.relatedApis named

theorem suggesting (h : r.Bare) (noted : r.notes ≠ []) {hits : List Declaration.Hit}
    (few : hits.length ≤ limit) (file : TypeFile) : (r.suggesting hits file).Settled limit where
  explained _ := noted
  attributed answered := by
    have unanswered : (r.suggesting hits file).api = none := h.api
    rw [unanswered] at answered
    cases answered
  suggested _ := ⟨h.api, rfl, Nat.le_trans (Nat.le_of_eq (List.length_map _)) few⟩

/-- Where no examples were asked for there are none to show. -/
theorem shown (h : r.Bare) (limit : Nat) (wanted : Bool)
    (unasked : ∀ e ∈ exchanges, e.isExamples = false) : r.Shown limit wanted exchanges where
  first _ _ _ asked := nomatch unasked _ asked
  found some := absurd h.examples some
  limited := by
    rw [h.examples]
    exact Nat.zero_le limit
  unwanted _ := h.examples

theorem coherent (h : r.Bare) (settings : ContextSettings) (request : ContextRequest)
    (noted : r.notes ≠ []) (named : r.framework.isSome ↔ r.package.isSome)
    (unasked : ∀ e ∈ exchanges, e.isExamples = false) :
    r.Coherent settings request exchanges where
  toSettled := h.settled settings.similarApiLimit noted
  toShown := h.shown _ _ unasked
  named := named
  unversioned _ := ⟨h.api, h.typesSource, h.examples, h.relatedApis⟩

end Bare

/-- Examples or the lack of them change nothing else, and notes are kept. -/
theorem Settled.attachExamples (h : r.Settled limit) (most : Nat)
    (answer : Except Failure (List CodeExample)) :
    (Service.attachExamples most answer r).Settled limit := by
  cases answer with
  | ok found => exact ⟨h.explained, h.attributed, h.suggested⟩
  | error e => exact ⟨fun _ => r.note_notes_ne_nil _, h.attributed, h.suggested⟩

end ContextResponse

theorem SimilarNames.settled {types : ResolvedTypes} {concept : Text} {r result : ContextResponse}
    (h : SimilarNames s types concept r result) (bare : r.Bare) :
    result.Settled s.settings.context.similarApiLimit ∧ result.examples = [] := by
  cases h with
  | none empty => exact ⟨(bare.note _).settled _ (r.note_notes_ne_nil _), bare.examples⟩
  | @some hits first nonempty =>
      have few : hits.length ≤ s.settings.context.similarApiLimit := by
        rw [← first]
        exact List.length_take_le _ _
      exact ⟨(bare.note _).suggesting (r.note_notes_ne_nil _) few types.file, bare.examples⟩

theorem SignatureLookup.settled {types : ResolvedTypes} {concept version : Text}
    {r result : ContextResponse} {exchanges : List Exchange}
    (h : SignatureLookup s types concept version r exchanges result) (bare : r.Bare) :
    result.Settled s.settings.context.similarApiLimit ∧ result.examples = [] := by
  have credited := bare.crediting types
  cases h with
  | main signature => exact ⟨credited.answering _ _ _, credited.examples⟩
  | barrel nothing search => exact ⟨(credited.note _).answering _ _ _, credited.examples⟩
  | similar nothing search names => exact names.settled credited

theorem Attachment.settled {package version concept : Text} {r result : ContextResponse}
    {types : Except Failure (Option ResolvedTypes)} {exchanges : List Exchange}
    (h : Attachment s package version concept r types exchanges result) (bare : r.Bare) :
    result.Settled s.settings.context.similarApiLimit ∧ result.examples = [] := by
  cases h with
  | failed e => exact ⟨(bare.note _).settled _ (r.note_notes_ne_nil _), bare.examples⟩
  | missing => exact ⟨(bare.note _).settled _ (r.note_notes_ne_nil _), bare.examples⟩
  | found lookup => exact lookup.settled bare

/-- The answer to the question for examples decides what a response shows. -/
theorem ExampleLookup.shown {framework concept : Text} {wanted : Bool} {asked : List Exchange}
    {answer : Except Failure (List CodeExample)}
    (h : ExampleLookup framework concept wanted asked answer) {r : ContextResponse}
    (none : r.examples = []) (limit : Nat) :
    (Service.attachExamples limit answer r).Shown limit wanted asked := by
  cases h with
  | unwanted =>
      have nothing : (Service.attachExamples limit (.ok []) r).examples = [] := List.take_nil
      exact {
        first := fun _ _ _ member => nomatch member
        found := fun some => absurd nothing some
        limited := List.length_take_le limit []
        unwanted := fun _ => nothing }
  | wanted =>
      cases answer with
      | ok found =>
          exact {
            first := fun _ _ _ member => by
              cases List.mem_singleton.mp member
              rfl
            found := fun _ => ⟨framework, concept, found, List.mem_singleton_self _⟩
            limited := List.length_take_le limit found
            unwanted := fun unwanted => nomatch unwanted }
      | error e =>
          have nothing : (Service.attachExamples limit (.error e) r).examples = [] := none
          exact {
            first := fun _ _ _ member => nomatch List.mem_singleton.mp member
            found := fun some => absurd nothing some
            limited := by
              rw [nothing]
              exact Nat.zero_le limit
            unwanted := fun unwanted => nomatch unwanted }

/-- Exchanges that are not about examples make no difference. -/
theorem ContextResponse.Shown.among {limit : Nat} {wanted : Bool} {asked exchanges : List Exchange}
    {r : ContextResponse} (h : r.Shown limit wanted asked)
    (same : ∀ e, e.isExamples = true → (e ∈ exchanges ↔ e ∈ asked)) :
    r.Shown limit wanted exchanges where
  first framework concept found member := h.first framework concept found ((same _ rfl).mp member)
  found some := by
    obtain ⟨framework, concept, found, member⟩ := h.found some
    exact ⟨framework, concept, found, (same _ rfl).mpr member⟩
  limited := h.limited
  unwanted := h.unwanted

theorem SubjectRun.coherent {request : ContextRequest} {parsed : Query.Parsed} {subject : Subject}
    {r result : ContextResponse} {exchanges : List Exchange}
    (h : SubjectRun s request parsed subject r exchanges result) (bare : r.Bare)
    (named : r.framework.isSome ↔ r.package.isSome) :
    result.Coherent s.settings.context request exchanges := by
  cases h with
  | conceptless noConcept =>
      exact (bare.note _).coherent _ _ (r.note_notes_ne_nil _) named fun e member => nomatch member
  | lookupFailed e concept =>
      exact (bare.note _).coherent _ _ (r.note_notes_ne_nil _) named
        (List.forall_mem_singleton.mpr rfl)
  | unpublished concept =>
      exact (bare.note _).coherent _ _ (r.note_notes_ne_nil _) named
        (List.forall_mem_singleton.mpr rfl)
  | @resolved version lookups types asked examples files answered concept resolution shown
      attachment =>
      obtain ⟨settled, empty⟩ := attachment.settled (bare.versioned version)
      have grown := attachment.extends.trans
        (extends_attachExamples (request.exampleLimit s.settings.context) examples answered)
      -- Of all questions only one may be about examples.
      have others : ∀ e, e.isExamples = true →
          (e ∈ .version subject.package (request.version? parsed) (.ok (some version)) ::
            (lookups ++ asked ++ files) ↔ e ∈ asked) := by
        intro e about
        have notVersion : e ≠ .version subject.package (request.version? parsed)
            (.ok (some version)) := by
          rintro rfl
          cases about
        have notLookup : e ∉ lookups := fun member => by
          rw [(resolution.kinds e member).2] at about
          cases about
        have notFile : e ∉ files := fun member => by
          rw [Exchange.isExamples_eq_false (attachment.kinds e member)] at about
          cases about
        simp only [List.mem_cons, List.mem_append, notVersion, notLookup, notFile, false_or,
          or_false]
      exact {
        toSettled := settled.attachExamples _ _
        toShown := (shown.shown empty _).among others
        named := by rw [grown.framework, grown.package]; exact named
        unversioned := fun unknown => by rw [grown.version] at unknown; cases unknown }

theorem ContextRun.coherent {request : ContextRequest} {r : ContextResponse}
    {exchanges : List Exchange} (h : ContextRun s request exchanges r) :
    r.Coherent s.settings.context request exchanges := by
  have bare := ContextResponse.bare_opening request (s.parseQuery request.query)
  cases h with
  | unnamed unknown =>
      have start : ContextResponse.Bare
          { ContextResponse.opening request (s.parseQuery request.query) with
            notes := Note.noFramework } := ⟨rfl, rfl, rfl, rfl⟩
      exact start.coherent _ _ (List.cons_ne_nil _ _) Iff.rfl (List.forall_mem_nil _)
  | @named subject _ _ known run => exact run.coherent (bare.about subject) Iff.rfl

namespace Service

/-- Every response is coherent, whatever the sources answer and however they fail. -/
theorem context_coherent (s : Service σ) (request : ContextRequest) (session : Session σ) :
    (s.context request session).1.Coherent s.settings.context request
      (s.exchanges request session) :=
  (s.contextRun request session).coherent

end Service
end ApiReference
