import ApiReference.Proofs.Service.Growth
import ApiReference.Service.World
import Mathlib.Control.Monad.Basic

/-!
# Where an answer is from

The main file of a package answers if it can, else the first further file that can; if none can, the
main file suggests names. All further files are asked for at one place, the one of the main file.
-/

namespace ApiReference
open ApiReference.Declaration (ApiSignature)
open ApiReference.Package (CodeExample definitelyTypedName)

deriving instance DecidableEq for Exchange

/-- The main file among what was answered: the package's own, or else the one that the community has
at its latest version. -/
inductive MainFile (package version : Text) (exchanges : List Exchange) : ResolvedTypes → Prop
  | own {file} : .types package version (.ok (some file)) ∈ exchanges →
      MainFile package version exchanges ⟨file, package, false⟩
  | community {latest file} : .types package version (.ok none) ∈ exchanges →
      .version (definitelyTypedName package) none (.ok (some latest)) ∈ exchanges →
      .types (definitelyTypedName package) latest (.ok (some file)) ∈ exchanges →
      MainFile package version exchanges ⟨file, definitelyTypedName package, true⟩

/-- A path that was tried, with the answer. -/
abbrev Attempt := Text × Except Failure (Option TypeFile)

/-- The exchange about a path at a version of a package. -/
def Attempt.exchange (package version : Text) (attempt : Attempt) : Exchange :=
  .file package version attempt.1 attempt.2

/-- The attempts at some paths end with the first file that has a signature for a concept. -/
inductive FirstMatch (concept : Text) (paths : List Text) :
    List Attempt → Option (ApiSignature × TypeFile) → Prop
  | nowhere {tried} : tried.map Prod.fst = paths → (∀ a ∈ tried, foundIn? concept a.2 = none) →
      FirstMatch concept paths tried none
  | found (earlier) {path file later api} : paths = earlier.map Prod.fst ++ path :: later →
      (∀ a ∈ earlier, foundIn? concept a.2 = none) → file.signature? concept = some api →
      FirstMatch concept paths (earlier ++ [(path, .ok (some file))]) (some (api, file))

variable {σ : Type} {s : Service σ}

/-- The paths of the further files that may hold a concept. -/
def Service.furtherPaths (s : Service σ) (main : ResolvedTypes) (concept : Text) : List Text :=
  (s.sources.barrelPaths main.package concept).filter (· ≠ main.file.path)

/-- Where the answer for a concept is from, given the main file and what else was tried. -/
inductive Sourced (s : Service σ) (main : ResolvedTypes) (concept : Text) :
    List Attempt → ContextResponse → Prop
  | main {api r} : main.file.signature? concept = some api →
      r.api = some api → r.typesSource = some main.file.source →
      Sourced s main concept [] r
  | further {tried api file r} : main.file.signature? concept = none →
      FirstMatch concept (s.furtherPaths main concept) tried (some (api, file)) →
      r.api = some api → r.typesSource = some file.source →
      Sourced s main concept tried r
  | suggested {tried r} : main.file.signature? concept = none →
      FirstMatch concept (s.furtherPaths main concept) tried none →
      r.api = none →
      r.relatedApis = ((main.file.hits concept).take s.settings.context.similarApiLimit).map
        (·.definition.name) →
      r.typesSource = (if r.relatedApis = [] then none else some main.file.source) →
      Sourced s main concept tried r

theorem eq_of_foundIn? {concept : Text} {answer : Except Failure (Option TypeFile)}
    {api : ApiSignature} {file : TypeFile} (h : foundIn? concept answer = some (api, file)) :
    answer = .ok (some file) ∧ file.signature? concept = some api := by
  rcases answer with e | _ | found
  · cases h
  · cases h
  · obtain ⟨signature, named, same⟩ := Option.map_eq_some_iff.mp h
    cases same
    exact ⟨rfl, named⟩

namespace FirstMatch
variable {concept path : Text} {paths : List Text} {answer : Except Failure (Option TypeFile)}

/-- A path without a match is passed. -/
theorem cons {tried : List Attempt} {result : Option (ApiSignature × TypeFile)}
    (nothing : foundIn? concept answer = none) (h : FirstMatch concept paths tried result) :
    FirstMatch concept (path :: paths) ((path, answer) :: tried) result := by
  cases h with
  | nowhere all unmatched =>
      exact .nowhere (congrArg (path :: ·) all) (List.forall_mem_cons.mpr ⟨nothing, unmatched⟩)
  | found earlier split unmatched signature =>
      exact .found ((path, answer) :: earlier) (congrArg (path :: ·) split)
        (List.forall_mem_cons.mpr ⟨nothing, unmatched⟩) signature

/-- A path with a match is the last one. -/
theorem head {api : ApiSignature} {file : TypeFile}
    (signature : foundIn? concept answer = some (api, file)) :
    FirstMatch concept (path :: paths) [(path, answer)] (some (api, file)) := by
  obtain ⟨rfl, named⟩ := eq_of_foundIn? signature
  exact .found [] rfl (fun a member => nomatch member) named

end FirstMatch

/-- A search asks for the files at the given paths, but for the main one, up to the first match. -/
theorem BarrelSearch.firstMatch {package version mainPath concept : Text} {paths : List Text}
    {exchanges : List Exchange} {result : Option (ApiSignature × TypeFile)}
    (h : BarrelSearch package version mainPath concept paths exchanges result) :
    ∃ tried : List Attempt, exchanges = tried.map (Attempt.exchange package version) ∧
      FirstMatch concept (paths.filter (· ≠ mainPath)) tried result := by
  induction h with
  | exhausted => exact ⟨[], rfl, .nowhere rfl fun a member => nomatch member⟩
  | main search ih =>
      rw [List.filter_cons_of_neg (by simp)]
      exact ih
  | @passed path paths answer exchanges result other nothing search ih =>
      obtain ⟨tried, rfl, first⟩ := ih
      rw [List.filter_cons_of_pos (by simpa using other)]
      exact ⟨(path, answer) :: tried, rfl, first.cons nothing⟩
  | @found path paths answer result other signature =>
      rw [List.filter_cons_of_pos (by simpa using other)]
      exact ⟨[(path, answer)], rfl, .head signature⟩

theorem Sourced.of_similarNames {main : ResolvedTypes} {concept : Text} {tried : List Attempt}
    {r result : ContextResponse} (nothing : main.file.signature? concept = none)
    (nowhere : FirstMatch concept (s.furtherPaths main concept) tried none) (bare : r.Bare)
    (h : SimilarNames s main concept r result) : Sourced s main concept tried result := by
  cases h with
  | none empty =>
      refine .suggested nothing nowhere bare.api ?_ ?_
      · rw [empty]
        exact bare.relatedApis
      · exact bare.typesSource.trans (if_pos bare.relatedApis).symm
  | @some hits first nonempty =>
      refine .suggested nothing nowhere bare.api (by rw [first]; rfl) ?_
      have named : hits.map (·.definition.name) ≠ [] := fun none =>
        nonempty (List.map_eq_nil_iff.mp none)
      exact (if_neg named).symm

theorem SignatureLookup.sourced {main : ResolvedTypes} {concept version : Text}
    {r result : ContextResponse} {exchanges : List Exchange}
    (h : SignatureLookup s main concept version r exchanges result) (bare : r.Bare) :
    ∃ tried : List Attempt,
      exchanges = tried.map (Attempt.exchange main.package (main.versionOr version)) ∧
      Sourced s main concept tried result := by
  cases h with
  | main signature => exact ⟨[], rfl, .main signature rfl rfl⟩
  | barrel nothing search =>
      obtain ⟨tried, asked, first⟩ := search.firstMatch
      exact ⟨tried, asked, .further nothing first rfl rfl⟩
  | similar nothing search names =>
      obtain ⟨tried, asked, nowhere⟩ := search.firstMatch
      exact ⟨tried, asked, .of_similarNames nothing nowhere (bare.crediting main) names⟩

/-- Examples make no difference to where the answer is from. -/
theorem Sourced.attachExamples {main : ResolvedTypes} {concept : Text} {tried : List Attempt}
    {r : ContextResponse} (h : Sourced s main concept tried r) (limit : Nat)
    (answer : Except Failure (List CodeExample)) :
    Sourced s main concept tried (Service.attachExamples limit answer r) := by
  have same : (Service.attachExamples limit answer r).api = r.api ∧
      (Service.attachExamples limit answer r).typesSource = r.typesSource ∧
      (Service.attachExamples limit answer r).relatedApis = r.relatedApis := by
    cases answer <;> exact ⟨rfl, rfl, rfl⟩
  obtain ⟨api, source, names⟩ := same
  cases h with
  | main signature found origin => exact .main signature (api.trans found) (source.trans origin)
  | further nothing first found origin =>
      exact .further nothing first (api.trans found) (source.trans origin)
  | suggested nothing nowhere none suggested origin =>
      refine .suggested nothing nowhere (api.trans none) (names.trans suggested) ?_
      rw [names]
      exact source.trans origin

/-- Only a file that the community has makes up its declarations. -/
theorem CommunityLookup.eq_of_mem {fallback package version : Text} {exchanges : List Exchange}
    {types : Except Failure (Option ResolvedTypes)} {file : TypeFile}
    (h : CommunityLookup fallback exchanges types)
    (member : .types package version (.ok (some file)) ∈ exchanges) :
    package = fallback ∧ types = .ok (some ⟨file, fallback, true⟩) := by
  cases h <;> simp_all

/-- The main file among the answers is what the declarations are resolved to. -/
theorem Resolution.eq_of_mainFile {package version : Text} {lookups exchanges : List Exchange}
    {types : Except Failure (Option ResolvedTypes)} {main : ResolvedTypes}
    (h : Resolution package version lookups types)
    (file : MainFile package version exchanges main)
    (same : ∀ p v answer, .types p v answer ∈ exchanges → .types p v answer ∈ lookups) :
    types = .ok (some main) := by
  cases file with
  | @own file answered =>
      have answered := same _ _ _ answered
      cases h with
      | failed e => cases List.mem_singleton.mp answered
      | own file' =>
          cases List.mem_singleton.mp answered
          rfl
      | untyped none => cases List.mem_singleton.mp answered
      | community other lookup =>
          -- The community's package has another name, so its file is not the package's own.
          rcases List.mem_cons.mp answered with none | later
          · cases none
          · exact absurd (lookup.eq_of_mem later).1.symm other
  | @community latest file missing published answered =>
      have missing := same _ _ _ missing
      have answered := same _ _ _ answered
      cases h with
      | failed e => cases List.mem_singleton.mp missing
      | own file' => cases List.mem_singleton.mp missing
      | untyped none => exact nomatch (Exchange.types.inj (List.mem_singleton.mp answered)).2.2
      | community other lookup =>
          rcases List.mem_cons.mp answered with none | later
          · exact nomatch (Exchange.types.inj none).2.2
          · exact (lookup.eq_of_mem later).2

theorem MainFile.asked {package version : Text} {exchanges : List Exchange} {main : ResolvedTypes}
    (h : MainFile package version exchanges main) :
    ∃ answer, .types package version answer ∈ exchanges := by
  cases h with
  | own answered => exact ⟨_, answered⟩
  | community missing published answered => exact ⟨_, missing⟩

theorem SubjectRun.sourced {request : ContextRequest} {parsed : Query.Parsed} {subject : Subject}
    {r result : ContextResponse} {exchanges : List Exchange} {version : Text}
    {main : ResolvedTypes} (h : SubjectRun s request parsed subject r exchanges result)
    (bare : r.Bare) (versioned : result.version = some version)
    (file : MainFile subject.package version exchanges main) :
    ∃ tried : List Attempt, exchanges.filter Exchange.isFile =
        tried.map (Attempt.exchange main.package (main.versionOr version)) ∧
      Sourced s main parsed.concept tried result := by
  obtain ⟨answer, asked⟩ := file.asked
  cases h with
  | conceptless noConcept => cases asked
  | lookupFailed e concept => cases List.mem_singleton.mp asked
  | unpublished concept => cases List.mem_singleton.mp asked
  | @resolved version' lookups types shown examples files answered concept resolution examined
      attachment =>
      have grown := attachment.extends.trans
        (extends_attachExamples (request.exampleLimit s.settings.context) examples answered)
      obtain rfl : version' = version := Option.some.inj (grown.version.symm.trans versioned)
      have same : ∀ p v answer, .types p v answer ∈
          .version subject.package (request.version? parsed) (.ok (some version')) ::
            (lookups ++ shown ++ files) → .types p v answer ∈ lookups := by
        intro p v answer member
        simp only [List.mem_cons, List.mem_append, or_assoc] at member
        rcases member with first | member | member | member
        · cases first
        · exact member
        · cases examined.kinds _ member
        · cases attachment.kinds _ member
      obtain rfl := resolution.eq_of_mainFile file same
      have onlyFiles : (.version subject.package (request.version? parsed) (.ok (some version')) ::
          (lookups ++ shown ++ files)).filter Exchange.isFile = files := by
        have noLookup : lookups.filter Exchange.isFile = [] :=
          List.filter_eq_nil_iff.mpr fun e member => by simp [(resolution.kinds e member).1]
        have noExample : shown.filter Exchange.isFile = [] :=
          List.filter_eq_nil_iff.mpr fun e member => by
            simp [Exchange.isFile_eq_false (examined.kinds e member)]
        rw [List.filter_cons_of_neg (by simp [Exchange.isFile]), List.filter_append,
          List.filter_append, noLookup, noExample, List.filter_eq_self.mpr attachment.kinds]
        rfl
      cases attachment with
      | found lookup =>
          obtain ⟨tried, asked, sourced⟩ := lookup.sourced (bare.versioned version')
          exact ⟨tried, onlyFiles.trans asked, sourced.attachExamples _ _⟩

theorem ContextRun.sourced {request : ContextRequest} {r : ContextResponse}
    {exchanges : List Exchange} {package version : Text} {main : ResolvedTypes}
    (h : ContextRun s request exchanges r) (named : r.package = some package)
    (versioned : r.version = some version) (file : MainFile package version exchanges main) :
    ∃ tried : List Attempt, exchanges.filter Exchange.isFile =
        tried.map (Attempt.exchange main.package (main.versionOr version)) ∧
      Sourced s main (s.parseQuery request.query).concept tried r := by
  cases h with
  | unnamed unknown => cases named
  | @named subject exchanges r known run =>
      have bare := (ContextResponse.bare_opening request (s.parseQuery request.query)).about subject
      cases run.package.symm.trans named
      exact run.sourced bare versioned file

namespace Service

/-- The answer is from the main file, else from the first further file that has it, all of them
asked for where the main file is from; if none has it, the main file suggests names. -/
theorem context_sourced (s : Service σ) (request : ContextRequest) (session : Session σ)
    {package version : Text} {main : ResolvedTypes}
    (named : (s.context request session).1.package = some package)
    (versioned : (s.context request session).1.version = some version)
    (file : MainFile package version (s.exchanges request session) main) :
    ∃ tried : List Attempt,
      (s.exchanges request session).filter Exchange.isFile =
        tried.map (Attempt.exchange main.package (main.versionOr version)) ∧
      Sourced s main (s.parseQuery request.query).concept tried (s.context request session).1 :=
  (s.contextRun request session).sourced named versioned file

end Service

namespace Express

/-- A package without declarations, which the community has in two files. -/
def world : World :=
  { versions := [("express".toList, ["5.1.0".toList]), ("@types/express".toList, ["5.0.0".toList])]
    types := [("@types/express".toList, "declare function json(): void;".toList)]
    files := [("@types/express".toList,
      [("lib/index.d.ts".toList, "declare function Router(): void;".toList)])]
    barrelPaths := [("@types/express".toList,
      ["types/index.d.ts".toList, World.mainPath, "lib/index.d.ts".toList])] }

def service : Service Unit := ⟨{}, world.sources⟩

def session : Session Unit := Session.start {} ()

def request : ContextRequest := { query := "express Router".toList }

def main : ResolvedTypes :=
  ⟨World.fileOf "@types/express".toList "5.0.0".toList World.mainPath
    "declare function json(): void;".toList, "@types/express".toList, true⟩

/-- The second file of the community answers. -/
theorem context_sourced_further :
    MainFile "express".toList "5.1.0".toList (service.exchanges request session) main ∧
    (service.context request session).1.typesSource =
      some "memory://@types/express@5.0.0/lib/index.d.ts".toList ∧
    ∃ tried : List Attempt,
      (service.exchanges request session).filter Exchange.isFile =
        tried.map (Attempt.exchange main.package (main.versionOr "5.1.0".toList)) ∧
      Sourced service main (service.parseQuery request.query).concept tried
        (service.context request session).1 := by
  have heard : service.exchanges request session =
      [.version "express".toList none (.ok (some "5.1.0".toList)),
       .types "express".toList "5.1.0".toList (.ok none),
       .version "@types/express".toList none (.ok (some "5.0.0".toList)),
       .types "@types/express".toList "5.0.0".toList (.ok (some main.file)),
       .examples "express".toList "router".toList (.ok []),
       .file "@types/express".toList "5.0.0".toList "types/index.d.ts".toList (.ok none),
       .file "@types/express".toList "5.0.0".toList "lib/index.d.ts".toList
        (.ok (some (World.fileOf "@types/express".toList "5.0.0".toList "lib/index.d.ts".toList
          "declare function Router(): void;".toList)))] := by
    decide +kernel
  obtain ⟨named, versioned, source⟩ :
      (service.context request session).1.package = some "express".toList ∧
      (service.context request session).1.version = some "5.1.0".toList ∧
      (service.context request session).1.typesSource =
        some "memory://@types/express@5.0.0/lib/index.d.ts".toList := by
    decide +kernel
  have file :
      MainFile "express".toList "5.1.0".toList (service.exchanges request session) main := by
    rw [heard]
    exact .community (.tail _ (.head _)) (.tail _ (.tail _ (.head _)))
      (.tail _ (.tail _ (.tail _ (.head _))))
  exact ⟨file, source, service.context_sourced request session named versioned file⟩

end Express
end ApiReference
