import ApiReference.Proofs.Service.Provenance

/-!
# The order of questions

`Permitted` says for each question what must have been asked and answered before it. Declarations
and examples are asked for side by side, so their questions may come in any order that keeps the
order among each. Main statements: `JoinedRun.inOrder`, `Service.context_in_order`.
-/

namespace ApiReference
open ApiReference.Package (CodeExample definitelyTypedName)

/-- Whether an exchange is about a main declaration file. -/
def Exchange.isTypes : Exchange → Bool
  | .types .. => true
  | _ => false

/-- Two lists in one, each in its order. -/
inductive Woven {α : Type} : List α → List α → List α → Prop
  | nil : Woven [] [] []
  | left {a : α} {as bs cs : List α} : Woven as bs cs → Woven (a :: as) bs (a :: cs)
  | right {b : α} {as bs cs : List α} : Woven as bs cs → Woven as (b :: bs) (b :: cs)

section Weaving
variable {α : Type} {as bs cs : List α}

theorem Woven.mem_iff (h : Woven as bs cs) (e : α) : e ∈ cs ↔ e ∈ as ∨ e ∈ bs := by
  induction h with
  | nil => simp
  | left _ ih => rw [List.mem_cons, List.mem_cons, ih, or_assoc]
  | right _ ih => rw [List.mem_cons, List.mem_cons, ih, or_left_comm]

theorem Woven.eq_left (h : Woven as [] cs) : cs = as := by
  generalize none : [] = bs at h
  induction h with
  | nil => rfl
  | left _ ih => rw [ih none]
  | right => cases none

theorem Woven.concat (as bs : List α) : Woven as bs (as ++ bs) := by
  induction as with
  | nil =>
      induction bs with
      | nil => exact .nil
      | cons b bs ih => exact .right ih
  | cons a as ih => exact .left ih

end Weaving

variable {σ : Type} {s : Service σ} {request : ContextRequest} {parsed : Query.Parsed}
variable {subject : Subject} {history history' exchanges : List Exchange}

/-- When a question may be asked, for all that has been asked and answered before. -/
inductive Permitted (s : Service σ) (request : ContextRequest) (parsed : Query.Parsed)
    (subject : Subject) : List Exchange → Call → Prop
  /-- For the version of the package, as the first question. -/
  | version : Permitted s request parsed subject []
      (.version subject.package (request.version? parsed))
  /-- For the declarations of the package at the version found, once. -/
  | types {history version} :
      .version subject.package (request.version? parsed) (.ok (some version)) ∈ history →
      history.filter Exchange.isTypes = [] →
      Permitted s request parsed subject history (.types subject.package version)
  /-- For examples if they are wanted, when a version was found, once. -/
  | examples {history version} : request.wantsExamples = true →
      .version subject.package (request.version? parsed) (.ok (some version)) ∈ history →
      history.filter Exchange.isExamples = [] →
      Permitted s request parsed subject history (.examples subject.framework parsed.concept)
  /-- For the latest version of what the community has, when the package has no declarations. -/
  | communityVersion {history version} :
      definitelyTypedName subject.package ≠ subject.package →
      history.filter Exchange.isTypes = [.types subject.package version (.ok none)] →
      (∀ asked answer, .version (definitelyTypedName subject.package) asked answer ∉ history) →
      Permitted s request parsed subject history
        (.version (definitelyTypedName subject.package) none)
  /-- For the community's declarations at that version, when the package has none. -/
  | communityTypes {history version latest} :
      definitelyTypedName subject.package ≠ subject.package →
      history.filter Exchange.isTypes = [.types subject.package version (.ok none)] →
      .version (definitelyTypedName subject.package) none (.ok (some latest)) ∈ history →
      Permitted s request parsed subject history
        (.types (definitelyTypedName subject.package) latest)
  /-- For the next further file, when neither the main file nor any further file so far has a
  signature for the concept. -/
  | file {history version main path later} {tried : List Attempt} :
      MainFile subject.package version history main →
      main.file.signature? parsed.concept = none →
      history.filter Exchange.isFile =
        tried.map (Attempt.exchange main.package (main.versionOr version)) →
      (∀ a ∈ tried, foundIn? parsed.concept a.2 = none) →
      s.furtherPaths main parsed.concept = tried.map Prod.fst ++ path :: later →
      Permitted s request parsed subject history
        (.file main.package (main.versionOr version) path)

theorem MainFile.mono {package version : Text} {main : ResolvedTypes}
    (h : MainFile package version history main) (more : ∀ e ∈ history, e ∈ history') :
    MainFile package version history' main := by
  cases h with
  | own answered => exact .own (more _ answered)
  | community missing published answered =>
      exact .community (more _ missing) (more _ published) (more _ answered)

/-- What declarations are resolved to is the main file among the answers. -/
theorem Resolution.mainFile {package version : Text} {lookups : List Exchange}
    {main : ResolvedTypes} (h : Resolution package version lookups (.ok (some main))) :
    MainFile package version lookups main := by
  cases h with
  | own file => exact .own (.head _)
  | community other lookup =>
      cases lookup with
      | found latest file =>
          exact .community (.head _) (.tail _ (.head _)) (.tail _ (.tail _ (.head _)))

/-- Where an attempt stands among those at some paths, and that all before it are without a match. -/
theorem FirstMatch.split {concept : Text} {paths : List Text} {before after : List Attempt}
    {a : Attempt} {result : Option (Declaration.ApiSignature × TypeFile)}
    (h : FirstMatch concept paths (before ++ a :: after) result) :
    (∀ b ∈ before, foundIn? concept b.2 = none) ∧
      ∃ later, paths = before.map Prod.fst ++ a.1 :: later := by
  generalize all : before ++ a :: after = tried at h
  cases h with
  | nowhere paths_eq unmatched =>
      subst all
      refine ⟨fun b member => unmatched b (List.mem_append_left _ member), after.map Prod.fst, ?_⟩
      rw [← paths_eq, List.map_append, List.map_cons]
  | @found earlier path file later api paths_eq unmatched signature =>
      rw [List.append_eq_append_iff] at all
      rcases all with ⟨passed, rfl, rest⟩ | ⟨more, rfl, rest⟩
      · refine ⟨fun b member => unmatched b (List.mem_append_left _ member), ?_⟩
        rw [paths_eq, List.map_append]
        cases passed with
        | nil =>
            cases rest
            exact ⟨later, by simp⟩
        | cons b passed =>
            cases rest
            exact ⟨passed.map Prod.fst ++ path :: later, by simp⟩
      · cases more with
        | nil =>
            cases rest
            exact ⟨by simpa using unmatched, later, by simpa using paths_eq⟩
        | cons b more => simp at rest

/-- Each question is permitted by what comes before it, from a history on. -/
def Lawful (s : Service σ) (request : ContextRequest) (parsed : Query.Parsed) (subject : Subject)
    (history exchanges : List Exchange) : Prop :=
  ∀ before e after, exchanges = before ++ e :: after →
    Permitted s request parsed subject (history ++ before) e.call

namespace Lawful

theorem nil : Lawful s request parsed subject history [] := by
  intro before e after none
  cases before <;> cases none

theorem cons {e : Exchange} (first : Permitted s request parsed subject history e.call)
    (rest : Lawful s request parsed subject (history ++ [e]) exchanges) :
    Lawful s request parsed subject history (e :: exchanges) := by
  intro before e' after split
  cases before with
  | nil =>
      cases split
      rwa [List.append_nil]
  | cons b before =>
      cases split
      have later := rest before e' after rfl
      rwa [List.append_assoc] at later

theorem head {e : Exchange}
    (h : Lawful s request parsed subject history (e :: exchanges)) :
    Permitted s request parsed subject history e.call := by
  have first := h [] e exchanges rfl
  rwa [List.append_nil] at first

theorem tail {e : Exchange}
    (h : Lawful s request parsed subject history (e :: exchanges)) :
    Lawful s request parsed subject (history ++ [e]) exchanges := by
  intro before e' after split
  have later := h (e :: before) e' after (congrArg (e :: ·) split)
  rwa [List.append_assoc]

theorem append {more : List Exchange} (first : Lawful s request parsed subject history exchanges)
    (second : Lawful s request parsed subject (history ++ exchanges) more) :
    Lawful s request parsed subject history (exchanges ++ more) := by
  induction exchanges generalizing history with
  | nil => rwa [List.append_nil] at second
  | cons e exchanges ih =>
      refine .cons first.head (ih first.tail ?_)
      rwa [List.append_assoc]

end Lawful

/-- Histories that differ in exchanges about examples only. -/
def SameBesidesExamples (history history' : List Exchange) : Prop :=
  history.filter (!·.isExamples) = history'.filter (!·.isExamples)

theorem SameBesidesExamples.mem_iff (same : SameBesidesExamples history history') {e : Exchange}
    (other : e.isExamples = false) : e ∈ history ↔ e ∈ history' := by
  have shared := congrArg (e ∈ ·) same
  simpa [List.mem_filter, other] using shared

theorem SameBesidesExamples.filter_eq (same : SameBesidesExamples history history')
    {p : Exchange → Bool} (other : ∀ e, p e = true → e.isExamples = false) :
    history.filter p = history'.filter p := by
  have narrow (es : List Exchange) : (es.filter (!·.isExamples)).filter p = es.filter p := by
    rw [List.filter_filter]
    refine List.filter_congr fun e _ => ?_
    cases holds : p e with
    | false => rfl
    | true => simp [other e holds]
  rw [← narrow history, same, narrow]

/-- Exchanges about examples make no difference to when other questions may be asked. -/
theorem Permitted.of_same {e : Exchange}
    (h : Permitted s request parsed subject history e.call)
    (same : SameBesidesExamples history history') (begun : history ≠ [])
    (kind : e.isFile = false ∧ e.isExamples = false) :
    Permitted s request parsed subject history' e.call := by
  have types : history.filter Exchange.isTypes = history'.filter Exchange.isTypes := by
    refine same.filter_eq fun e types => ?_
    cases e with
    | types => rfl
    | _ => cases types
  generalize asked : e.call = call at h
  cases h with
  | version => exact absurd rfl begun
  | types published first => exact .types ((same.mem_iff rfl).1 published) (types ▸ first)
  | examples wanted published first =>
      cases e with
      | examples => exact Bool.noConfusion kind.2
      | _ => cases asked
  | communityVersion other missing first =>
      refine .communityVersion other (types ▸ missing) fun request answer found => ?_
      exact first request answer ((same.mem_iff rfl).2 found)
  | communityTypes other missing published =>
      exact .communityTypes other (types ▸ missing) ((same.mem_iff rfl).1 published)
  | file main nothing tried unmatched next =>
      cases e with
      | file => exact Bool.noConfusion kind.1
      | _ => cases asked

theorem Lawful.of_same (h : Lawful s request parsed subject history exchanges)
    (same : SameBesidesExamples history history') (begun : history ≠ [])
    (kinds : ∀ e ∈ exchanges, e.isFile = false ∧ e.isExamples = false) :
    Lawful s request parsed subject history' exchanges := by
  intro before e after split
  have kind := kinds e (split ▸ List.mem_append_right before (.head after))
  refine (h before e after split).of_same ?_ (List.append_ne_nil_of_left_ne_nil begun _) kind
  simp only [SameBesidesExamples, List.filter_append]
  rw [same]

/-- Examples may be asked for at any time between the questions for declarations. -/
theorem Lawful.woven {lookups asked merged : List Exchange} {version : Text}
    {examples : Except Failure (List CodeExample)}
    (lawful : Lawful s request parsed subject history lookups)
    (kinds : ∀ e ∈ lookups, e.isFile = false ∧ e.isExamples = false)
    (lookup : ExampleLookup subject.framework parsed.concept request.wantsExamples asked examples)
    (published : .version subject.package (request.version? parsed) (.ok (some version)) ∈ history)
    (unasked : history.filter Exchange.isExamples = []) (woven : Woven lookups asked merged) :
    Lawful s request parsed subject history merged := by
  generalize wants : request.wantsExamples = wanted at lookup
  cases lookup with
  | unwanted =>
      rw [woven.eq_left]
      exact lawful
  | wanted =>
      generalize one : [Exchange.examples subject.framework parsed.concept examples] = asked at woven
      induction woven generalizing history with
      | nil => cases one
      | @left e lookups asked merged woven ih =>
          have kind := List.forall_mem_cons.1 kinds
          refine .cons lawful.head (ih lawful.tail kind.2 (List.mem_append_left _ published) ?_ one)
          rw [List.filter_append, unasked, List.filter_cons_of_neg (by simp [kind.1.2])]
          rfl
      | @right e lookups asked merged woven ih =>
          cases one
          rw [woven.eq_left]
          refine .cons (.examples wants published unasked)
            (lawful.of_same ?_ (List.ne_nil_of_mem published) kinds)
          simp [SameBesidesExamples, List.filter_append, Exchange.isExamples]

theorem CommunityLookup.lawful {version : Text} {types : Except Failure (Option ResolvedTypes)}
    (other : definitelyTypedName subject.package ≠ subject.package)
    (missing : history.filter Exchange.isTypes = [.types subject.package version (.ok none)])
    (unasked : ∀ request answer,
      .version (definitelyTypedName subject.package) request answer ∉ history)
    (h : CommunityLookup (definitelyTypedName subject.package) exchanges types) :
    Lawful s request parsed subject history exchanges := by
  have first : Permitted s request parsed subject history
      (.version (definitelyTypedName subject.package) none) :=
    .communityVersion other missing unasked
  have second (latest : Text) (answer : Except Failure (Option TypeFile)) :
      Lawful s request parsed subject history
        [.version (definitelyTypedName subject.package) none (.ok (some latest)),
          .types (definitelyTypedName subject.package) latest answer] := by
    have still : (history ++ [Exchange.version (definitelyTypedName subject.package) none
        (.ok (some latest))]).filter Exchange.isTypes =
          [.types subject.package version (.ok none)] := by
      rw [List.filter_append, missing]
      rfl
    exact .cons first (.cons (.communityTypes other still (List.mem_append_right _ (.head _))) .nil)
  cases h with
  | lookupFailed e => exact .cons first .nil
  | unpublished => exact .cons first .nil
  | failed latest e => exact second latest _
  | missing latest => exact second latest _
  | found latest file => exact second latest _

theorem Resolution.lawful {version : Text} {types : Except Failure (Option ResolvedTypes)}
    (h : Resolution subject.package version exchanges types) :
    Lawful s request parsed subject
      [.version subject.package (request.version? parsed) (.ok (some version))] exchanges := by
  have first : Permitted s request parsed subject
      [.version subject.package (request.version? parsed) (.ok (some version))]
      (.types subject.package version) := .types (.head _) rfl
  cases h with
  | failed e => exact .cons first .nil
  | own file => exact .cons first .nil
  | untyped same => exact .cons first .nil
  | community other lookup =>
      have missing : [Exchange.version subject.package (request.version? parsed) (.ok (some version)),
          .types subject.package version (.ok none)].filter Exchange.isTypes =
        [.types subject.package version (.ok none)] := rfl
      refine .cons first (lookup.lawful other missing fun asked answer found => ?_)
      simp only [List.cons_append, List.nil_append, List.mem_cons, List.not_mem_nil, or_false,
        Exchange.version.injEq, reduceCtorEq] at found
      exact other found.1

/-- Further files are asked for after a main file without a match, one after the other. -/
theorem BarrelSearch.lawful {version : Text} {main : ResolvedTypes}
    {result : Option (Declaration.ApiSignature × TypeFile)}
    (h : BarrelSearch main.package (main.versionOr version) main.file.path parsed.concept
      (s.sources.barrelPaths main.package parsed.concept) exchanges result)
    (file : MainFile subject.package version history main)
    (nothing : main.file.signature? parsed.concept = none)
    (unasked : history.filter Exchange.isFile = []) :
    Lawful s request parsed subject history exchanges := by
  obtain ⟨tried, rfl, first⟩ := h.firstMatch
  intro before e after split
  obtain ⟨earlier, rest, rfl, rfl, here⟩ := List.map_eq_append_iff.1 split
  obtain ⟨a, later, rfl, rfl, -⟩ := List.map_eq_cons_iff.1 here
  obtain ⟨unmatched, further, paths⟩ := first.split
  refine .file (file.mono fun e member => List.mem_append_left _ member) nothing ?_ unmatched paths
  have files : (earlier.map (Attempt.exchange main.package (main.versionOr version))).filter
      Exchange.isFile = earlier.map (Attempt.exchange main.package (main.versionOr version)) :=
    List.filter_eq_self.2 fun e member => by
      obtain ⟨b, -, rfl⟩ := List.mem_map.1 member
      rfl
  rw [List.filter_append, unasked, List.nil_append, files]

theorem Attachment.lawful {version : Text} {types : Except Failure (Option ResolvedTypes)}
    {r result : ContextResponse}
    (h : Attachment s subject.package version parsed.concept r types exchanges result)
    (file : ∀ main, types = .ok (some main) → MainFile subject.package version history main)
    (unasked : history.filter Exchange.isFile = []) :
    Lawful s request parsed subject history exchanges := by
  cases h with
  | failed e => exact .nil
  | missing => exact .nil
  | found lookup =>
      have main := file _ rfl
      cases lookup with
      | main signature => exact .nil
      | barrel nothing search => exact search.lawful main nothing unasked
      | similar nothing search names => exact search.lawful main nothing unasked

/-- How a request can go when declarations and examples are asked for side by side: as in turn, but
questions for examples may come between those for declarations. Further files are only asked for
when both have been answered. -/
inductive JoinedRun (s : Service σ) (request : ContextRequest) :
    List Exchange → ContextResponse → Prop
  | inTurn {exchanges r} : ContextRun s request exchanges r → JoinedRun s request exchanges r
  | sideBySide {subject version lookups types asked examples merged files result} :
      request.subject? s.catalog (s.parseQuery request.query) = some subject →
      (s.parseQuery request.query).concept ≠ [] →
      Resolution subject.package version lookups types →
      ExampleLookup subject.framework (s.parseQuery request.query).concept request.wantsExamples
        asked examples →
      Woven lookups asked merged →
      Attachment s subject.package version (s.parseQuery request.query).concept
        { (ContextResponse.opening request (s.parseQuery request.query)).about subject with
          version := some version } types files result →
      JoinedRun s request
        (.version subject.package (request.version? (s.parseQuery request.query))
          (.ok (some version)) :: (merged ++ files))
        (Service.attachExamples (request.exampleLimit s.settings.context) examples result)

/-- What is asked keeps to an order. -/
structure InOrder (s : Service σ) (request : ContextRequest) (exchanges : List Exchange)
    (r : ContextResponse) : Prop where
  /-- Without a framework or a concept nothing is asked. -/
  silent : request.subject? s.catalog (s.parseQuery request.query) = none ∨
    (s.parseQuery request.query).concept = [] → exchanges = []
  /-- Otherwise the version of the package that the response is about is asked for, first and only
  once; without a version nothing more is asked. -/
  begun : ∀ subject, request.subject? s.catalog (s.parseQuery request.query) = some subject →
    (s.parseQuery request.query).concept ≠ [] →
    r.package = some subject.package ∧ ∃ answer rest,
      exchanges =
        .version subject.package (request.version? (s.parseQuery request.query)) answer :: rest ∧
      (∀ again answer', .version subject.package again answer' ∉ rest) ∧
      ((∀ version, answer ≠ .ok (some version)) → rest = [])
  /-- Every question is permitted by what was asked and answered before it. -/
  permitted : ∀ subject,
    request.subject? s.catalog (s.parseQuery request.query) = some subject →
    ∀ before e after, exchanges = before ++ e :: after →
      Permitted s request (s.parseQuery request.query) subject before e.call

/-- The version of the package is asked for at the beginning only. -/
theorem Lawful.version_once {e : Exchange}
    (h : Lawful s request parsed subject [] (e :: exchanges)) (again : Option Text)
    (answer : Except Failure (Option Text)) :
    .version subject.package again answer ∉ exchanges := by
  intro member
  obtain ⟨before, after, rfl⟩ := List.append_of_mem member
  have later := h (e :: before) _ after rfl
  simp only [List.nil_append, Exchange.call] at later
  generalize asked : e :: before = history at later
  generalize about : subject.package = package at later
  cases later with
  | version => cases asked
  | communityVersion other => exact other about.symm

theorem lawful_sideBySide {version : Text} {lookups asked merged files : List Exchange}
    {types : Except Failure (Option ResolvedTypes)}
    {examples : Except Failure (List CodeExample)} {r result : ContextResponse}
    (resolution : Resolution subject.package version lookups types)
    (lookup : ExampleLookup subject.framework parsed.concept request.wantsExamples asked examples)
    (woven : Woven lookups asked merged)
    (attachment : Attachment s subject.package version parsed.concept r types files result) :
    Lawful s request parsed subject []
      (.version subject.package (request.version? parsed) (.ok (some version)) ::
        (merged ++ files)) := by
  refine .cons .version (.append ?_ ?_)
  · exact (Resolution.lawful resolution).woven resolution.kinds lookup (.head _) rfl woven
  · refine attachment.lawful (fun main found => ?_) ?_
    · subst found
      refine resolution.mainFile.mono fun e member => List.mem_append_right _ ?_
      exact (woven.mem_iff e).2 (.inl member)
    · have noFile : merged.filter Exchange.isFile = [] := by
        refine List.filter_eq_nil_iff.2 fun e member => ?_
        rcases (woven.mem_iff e).1 member with asked | asked
        · simp [(resolution.kinds e asked).1]
        · simp [Exchange.isFile_eq_false (lookup.kinds e asked)]
      rw [List.filter_append, noFile]
      rfl

theorem SubjectRun.lawful {r result : ContextResponse}
    (h : SubjectRun s request parsed subject r exchanges result) :
    Lawful s request parsed subject [] exchanges := by
  cases h with
  | conceptless noConcept => exact .nil
  | lookupFailed e concept => exact .cons .version .nil
  | unpublished concept => exact .cons .version .nil
  | resolved concept resolution lookup attachment =>
      exact lawful_sideBySide resolution lookup (.concat _ _) attachment

/-- Lawful questions about a subject are in order if they begin with the one for its version. -/
theorem InOrder.of_lawful {r : ContextResponse}
    (known : request.subject? s.catalog (s.parseQuery request.query) = some subject)
    (lawful : Lawful s request (s.parseQuery request.query) subject [] exchanges)
    (package : r.package = some subject.package)
    (silent : (s.parseQuery request.query).concept = [] → exchanges = [])
    (begun : (s.parseQuery request.query).concept ≠ [] → ∃ answer rest,
      exchanges =
        .version subject.package (request.version? (s.parseQuery request.query)) answer :: rest ∧
      ((∀ version, answer ≠ .ok (some version)) → rest = [])) :
    InOrder s request exchanges r := by
  refine ⟨?_, ?_, ?_⟩
  · rintro (unknown | noConcept)
    · cases unknown.symm.trans known
    · exact silent noConcept
  · intro other about concept
    cases about.symm.trans known
    obtain ⟨answer, rest, rfl, stops⟩ := begun concept
    exact ⟨package, answer, rest, rfl, lawful.version_once, stops⟩
  · intro other about
    cases about.symm.trans known
    exact lawful

theorem SubjectRun.inOrder {r : ContextResponse}
    (known : request.subject? s.catalog (s.parseQuery request.query) = some subject)
    (h : SubjectRun s request (s.parseQuery request.query) subject
      ((ContextResponse.opening request (s.parseQuery request.query)).about subject) exchanges r) :
    InOrder s request exchanges r := by
  refine .of_lawful known h.lawful h.package (fun noConcept => ?_) fun concept => ?_
  · cases h with
    | conceptless => rfl
    | lookupFailed e concept => exact absurd noConcept concept
    | unpublished concept => exact absurd noConcept concept
    | resolved concept => exact absurd noConcept concept
  · cases h with
    | conceptless noConcept => exact absurd noConcept concept
    | lookupFailed e => exact ⟨_, [], rfl, fun _ => rfl⟩
    | unpublished => exact ⟨_, [], rfl, fun _ => rfl⟩
    | @resolved version => exact ⟨_, _, rfl, fun none => absurd rfl (none version)⟩

theorem JoinedRun.inOrder {r : ContextResponse} (h : JoinedRun s request exchanges r) :
    InOrder s request exchanges r := by
  cases h with
  | inTurn run =>
      cases run with
      | unnamed unknown =>
          refine ⟨fun _ => rfl, fun subject known => ?_, fun subject known => ?_⟩ <;>
            cases unknown.symm.trans known
      | named known run => exact run.inOrder known
  | @sideBySide subject version lookups types asked examples merged files result known concept
      resolution lookup woven attachment =>
      have grown := attachment.extends.trans
        (extends_attachExamples (request.exampleLimit s.settings.context) examples result)
      exact .of_lawful known (lawful_sideBySide resolution lookup woven attachment) grown.package
        (fun noConcept => absurd noConcept concept)
        fun _ => ⟨_, _, rfl, fun none => absurd rfl (none version)⟩

namespace Service

/-- A request asks its questions in order: whether it asks for declarations and examples in turn,
or side by side in any order that the answers may bring about. -/
theorem context_in_order (s : Service σ) (request : ContextRequest) (session : Session σ) :
    InOrder s request (s.exchanges request session) (s.context request session).1 ∧
    ∀ exchanges r, JoinedRun s request exchanges r → InOrder s request exchanges r :=
  ⟨(JoinedRun.inTurn (s.contextRun request session)).inOrder, fun _ _ run => run.inOrder⟩

end Service

/-! Examples asked for between the package's declarations and those of the community. -/

namespace Express

/-- The second of the further files. -/
def router : TypeFile :=
  World.fileOf "@types/express".toList "5.0.0".toList "lib/index.d.ts".toList
    "declare function Router(): void;".toList

def between : List Exchange :=
  [.types "express".toList "5.1.0".toList (.ok none),
   .examples "express".toList "router".toList (.ok []),
   .version "@types/express".toList none (.ok (some "5.0.0".toList)),
   .types "@types/express".toList "5.0.0".toList (.ok (some main.file))]

def further : List Exchange :=
  [.file "@types/express".toList "5.0.0".toList "types/index.d.ts".toList (.ok none),
   .file "@types/express".toList "5.0.0".toList "lib/index.d.ts".toList (.ok (some router))]

theorem context_in_order_between : ∃ r,
    JoinedRun service Express.request
      (.version "express".toList none (.ok (some "5.1.0".toList)) :: (between ++ further)) r ∧
    InOrder service Express.request
      (.version "express".toList none (.ok (some "5.1.0".toList)) :: (between ++ further)) r := by
  obtain ⟨known, concept, wanted⟩ :
      Express.request.subject? service.catalog (service.parseQuery Express.request.query) =
        some ⟨"express".toList, "express".toList⟩ ∧
      (service.parseQuery Express.request.query).concept = "router".toList ∧
      Express.request.version? (service.parseQuery Express.request.query) = none := by
    decide +kernel
  have nothing : main.file.signature? "router".toList = none := by decide +kernel
  obtain ⟨api, signature⟩ : ∃ api,
      foundIn? "router".toList (.ok (some router)) = some (api, router) := by
    have found : (router.signature? "router".toList).isSome = true := by decide +kernel
    obtain ⟨api, signature⟩ := Option.isSome_iff_exists.1 found
    exact ⟨api, by rw [foundIn?, signature]; rfl⟩
  have resolution : Resolution "express".toList "5.1.0".toList
      [.types "express".toList "5.1.0".toList (.ok none),
       .version "@types/express".toList none (.ok (some "5.0.0".toList)),
       .types "@types/express".toList "5.0.0".toList (.ok (some main.file))]
      (.ok (some main)) := .community (by decide) (.found _ _)
  have lookup : ExampleLookup "express".toList "router".toList Express.request.wantsExamples
      [.examples "express".toList "router".toList (.ok [])] (.ok []) := .wanted (.ok [])
  have search : BarrelSearch "@types/express".toList "5.0.0".toList World.mainPath "router".toList
      ["types/index.d.ts".toList, World.mainPath, "lib/index.d.ts".toList] further
      (some (api, router)) :=
    .passed (by decide) rfl (.main (.found (by decide) signature))
  rw [← concept] at nothing lookup search
  have run := JoinedRun.sideBySide known (by rw [concept]; decide) resolution lookup
    (.left (.right (.left (.left .nil)))) (.found (.barrel nothing search))
  rw [wanted, concept] at run
  exact ⟨_, run, (service.context_in_order Express.request session).2 _ _ run⟩

end Express
end ApiReference
