import ApiReference.Service.Request
import ApiReference.Service.Response
import ApiReference.Service.Session

/-!
# The context of an API

A query is resolved to a framework, a version and a signature, with examples. Nothing that goes
wrong makes the request fail: the response lacks what could not be had, and a note says so. Only a
further declaration file that cannot be had is passed over without a note.
-/

namespace ApiReference
open ApiReference.Declaration (ApiSignature)
open ApiReference.Package (CodeExample)

/-- A text without blanks around it, if there is anything else in it. -/
def given? (t : Option Text) : Option Text :=
  (t.map Text.trim).filter fun t => !t.isEmpty

/-- A framework and the package that describes it. -/
structure Subject where
  framework : Text
  package : Text
  deriving DecidableEq, Repr

/-- The framework that an explicit name stands for: a key, a package, or else itself. -/
def Subject.named (catalog : Catalog) (name : Text) : Subject :=
  let key := Text.lower name
  match catalog.primaryPackage? key with
  | some package => ⟨key, package⟩
  | none =>
    match catalog.ownerOf? name with
    | some f => ⟨f.key, name⟩
    | none => ⟨name, name⟩

/-- The framework that a request is about. -/
def ContextRequest.subject? (request : ContextRequest) (catalog : Catalog) (parsed : Query.Parsed) :
    Option Subject :=
  match given? request.framework with
  | some name => some (Subject.named catalog name)
  | none => parsed.target.map fun t => ⟨t.framework, t.package⟩

def ContextRequest.version? (request : ContextRequest) (parsed : Query.Parsed) : Option Text :=
  given? request.version <|> parsed.version

def ContextRequest.wantsExamples (request : ContextRequest) : Bool :=
  request.includeExamples.getD true

/-- The greatest number of examples: the requested one, else the configured one. -/
def ContextRequest.exampleLimit (request : ContextRequest) (settings : ContextSettings) : Nat :=
  request.maxExamples.getD settings.defaultMaxExamples

/-- The version at which further files are asked for: the one of the community's declarations if
they are in use, else the given one. -/
def ResolvedTypes.versionOr (types : ResolvedTypes) (version : Text) : Text :=
  if types.fromCommunity then types.file.version else version

namespace Note

def noFramework : List Text :=
  ["Could not identify a framework or package in the query.".toList,
   "Name the framework in the query (e.g. \"react useEffect\") or pass it explicitly.".toList]

def noConcept (framework : Text) : Text :=
  "No API name found in the query; ask about a specific ".toList ++ framework ++ " API.".toList

def noVersion (request : Option Text) (package : Text) : Text :=
  "Could not resolve version ".toList ++ request.getD "latest".toList ++ " of ".toList ++ package ++
    ['.']

def versionFailed (package : Text) (e : Failure) : Text :=
  "Version lookup for ".toList ++ package ++ " failed: ".toList ++ e.message

def noTypes (package version : Text) : Text :=
  "No type declarations available for ".toList ++ package ++ '@' :: version ++ ['.']

def typesFailed (package : Text) (e : Failure) : Text :=
  "Fetching type declarations for ".toList ++ package ++ " failed: ".toList ++ e.message

def examplesFailed (e : Failure) : Text := "Example lookup failed: ".toList ++ e.message

def community (package version : Text) : Text :=
  "Using community type definitions from ".toList ++ package ++ '@' :: version ++ ['.']

def foundIn (name path : Text) : Text :=
  "Found ".toList ++ name ++ " in ".toList ++ path ++ ['.']

def noDeclaration (concept package version : Text) : Text :=
  "No declaration named ".toList ++ concept ++ " in ".toList ++ package ++ '@' :: version ++ ['.']

def similar (concept : Text) (count : Nat) : Text :=
  "No exact match for ".toList ++ concept ++ "; ".toList ++ Text.ofNat count ++
    " similar APIs found.".toList

end Note

namespace ContextResponse

/-- The response when no more is known than the query. -/
def opening (request : ContextRequest) (parsed : Query.Parsed) : ContextResponse :=
  { query := request.query, concept := parsed.concept, confidence := parsed.confidence }

def about (r : ContextResponse) (subject : Subject) : ContextResponse :=
  { r with framework := some subject.framework, package := some subject.package }

/-- The response with a note if the declarations are the community's. -/
def crediting (r : ContextResponse) (types : ResolvedTypes) : ContextResponse :=
  if types.fromCommunity then r.note (Note.community types.package types.file.version) else r

/-- The response with a signature and the file it is from. -/
def answering (r : ContextResponse) (api : ApiSignature) (file : TypeFile) : ContextResponse :=
  { r with api := some api, typesSource := some file.source }

/-- The response with the names that hits in a file suggest. -/
def suggesting (r : ContextResponse) (hits : List Declaration.Hit) (file : TypeFile) :
    ContextResponse :=
  { r with relatedApis := hits.map (·.definition.name), typesSource := some file.source }

end ContextResponse

variable {σ : Type}

namespace Service

/-- The first of the files at some paths that has a signature for a concept. The main file and files
that are missing or cannot be had are passed over. -/
def searchBarrels (s : Service σ) (package version mainPath concept : Text) :
    List Text → Session σ → Option (ApiSignature × TypeFile) × Session σ
  | [], session => (none, session)
  | path :: paths, session =>
    if path = mainPath then s.searchBarrels package version mainPath concept paths session
    else
      let (answer, outside) := s.sources.file package version path session.outside
      match { session with outside := outside }.extractAnswer answer concept with
      | (some found, session) => (some found, session)
      | (none, session) => s.searchBarrels package version mainPath concept paths session

/-- The response with names like the concept, if there are any. -/
def attachSimilar (s : Service σ) (types : ResolvedTypes) (concept : Text)
    (response : ContextResponse) (session : Session σ) : ContextResponse × Session σ :=
  match session.search types.file concept s.settings.context.similarApiLimit with
  | ([], session) =>
    (response.note (Note.noDeclaration concept types.package types.file.version), session)
  | (hits, session) =>
    ((response.note (Note.similar concept hits.length)).suggesting hits types.file, session)

/-- The response with the signature of a concept: from the main file, else from another file, else
with similar names in its place. -/
def attachSignature (s : Service σ) (types : ResolvedTypes) (concept version : Text)
    (response : ContextResponse) (session : Session σ) : ContextResponse × Session σ :=
  let response := response.crediting types
  match session.extract types.file concept with
  | (some api, session) => (response.answering api types.file, session)
  | (none, session) =>
    let paths := s.sources.barrelPaths types.package concept
    match
      s.searchBarrels types.package (types.versionOr version) types.file.path concept paths session
    with
    | (some (api, file), session) =>
      ((response.note (Note.foundIn api.name file.path)).answering api file, session)
    | (none, session) => s.attachSimilar types concept response session

def findExamples (s : Service σ) (wanted : Bool) (framework concept : Text) (outside : σ) :
    Except Failure (List CodeExample) × σ :=
  if wanted then s.sources.examples framework concept outside else (.ok [], outside)

/-- The response with what was found of the declarations. -/
def attachTypes (s : Service σ) (package version concept : Text)
    (types : Except Failure (Option ResolvedTypes)) (response : ContextResponse)
    (session : Session σ) : ContextResponse × Session σ :=
  match types with
  | .ok (some types) => s.attachSignature types concept version response session
  | .ok none => (response.note (Note.noTypes package version), session)
  | .error e => (response.note (Note.typesFailed package e), session)

/-- The response with the first of the examples found. -/
def attachExamples (limit : Nat) (examples : Except Failure (List CodeExample))
    (response : ContextResponse) : ContextResponse :=
  match examples with
  | .ok examples => { response with examples := examples.take limit }
  | .error e => response.note (Note.examplesFailed e)

/-- The response once the version is known. Declarations and examples are both asked for before
either answer is looked at. -/
def contextAt (s : Service σ) (request : ContextRequest) (subject : Subject)
    (concept version : Text) (response : ContextResponse) (session : Session σ) :
    ContextResponse × Session σ :=
  let response := { response with version := some version }
  let (types, outside) := s.resolveTypes subject.package version session.outside
  let (examples, outside) :=
    s.findExamples request.wantsExamples subject.framework concept outside
  let (response, session) :=
    s.attachTypes subject.package version concept types response
      { session with outside := outside }
  (attachExamples (request.exampleLimit s.settings.context) examples response, session)

/-- The response once the framework is known. -/
def contextOf (s : Service σ) (request : ContextRequest) (parsed : Query.Parsed) (subject : Subject)
    (response : ContextResponse) (session : Session σ) : ContextResponse × Session σ :=
  let response := response.about subject
  if parsed.concept.isEmpty then (response.note (Note.noConcept subject.framework), session)
  else
    let wanted := request.version? parsed
    match s.sources.version subject.package wanted session.outside with
    | (.ok (some version), outside) =>
      s.contextAt request subject parsed.concept version response
        { session with outside := outside }
    | (.ok none, outside) =>
      (response.note (Note.noVersion wanted subject.package), { session with outside := outside })
    | (.error e, outside) =>
      (response.note (Note.versionFailed subject.package e), { session with outside := outside })

/-- What is known about the API that a request asks for. -/
def context (s : Service σ) (request : ContextRequest) (session : Session σ) :
    ContextResponse × Session σ :=
  let parsed := s.parseQuery request.query
  let response := ContextResponse.opening request parsed
  match request.subject? s.catalog parsed with
  | none => ({ response with notes := Note.noFramework }, session)
  | some subject => s.contextOf request parsed subject response session

end Service
end ApiReference
