import ApiReference.Service.Request
import ApiReference.Service.Response
import ApiReference.Service.Session

/-!
# Searching several frameworks

Each framework is searched on its own, and the results are merged by score. A framework that cannot
be searched is left out and does not disturb the others.
-/

namespace ApiReference

/-- The texts without blanks around them, of those that have anything else in them. -/
def givenTexts (ts : List Text) : List Text := (ts.map Text.trim).filter fun t => !t.isEmpty

/-- The frameworks to search: those of the request if it lists any, else the configured ones. -/
def SearchRequest.frameworksToSearch (request : SearchRequest) (settings : SearchSettings) :
    List Text :=
  givenTexts ((request.frameworks.filter fun fs => !fs.isEmpty).getD settings.defaultFrameworks)

/-- The greatest number of results: the requested one unless it is zero, else the configured one. -/
def SearchRequest.limitToUse (request : SearchRequest) (settings : SearchSettings) : Nat :=
  (request.limit.filter fun n => n != 0).getD settings.defaultLimit

def SearchResult.ofHit (framework : Text) (types : ResolvedTypes) (hit : Declaration.Hit) :
    SearchResult :=
  { framework := framework
    package := types.package
    version := types.file.version
    name := hit.definition.name
    kind := hit.definition.kind
    signature := hit.definition.signature
    description := hit.definition.description
    deprecated := hit.definition.deprecated
    score := hit.score }

variable {σ : Type}

namespace Service

def packageToSearch (s : Service σ) (framework : Text) : Text :=
  (s.catalog.primaryPackage? (Text.lower framework)).getD framework

/-- The declarations of a framework, if they can be had. -/
def typesToSearch (s : Service σ) (framework : Text) (outside : σ) : Option ResolvedTypes × σ :=
  let package := s.packageToSearch framework
  match s.sources.version package none outside with
  | (.ok (some version), outside) =>
    match s.resolveTypes package version outside with
    | (.ok types, outside) => (types, outside)
    | (.error _, outside) => (none, outside)
  | (_, outside) => (none, outside)

/-- The best results of a framework, unless it cannot be searched. -/
def searchFramework (s : Service σ) (query : Text) (limit : Nat) (framework : Text)
    (session : Session σ) : Option (List SearchResult) × Session σ :=
  match s.typesToSearch framework session.outside with
  | (none, outside) => (none, { session with outside := outside })
  | (some types, outside) =>
    let (hits, session) := { session with outside := outside }.search types.file query limit
    (some (hits.map (SearchResult.ofHit framework types)), session)

/-- The frameworks that can be searched, each with its best results, in the given order. -/
def searchFrameworks (s : Service σ) (query : Text) (limit : Nat) :
    List Text → Session σ → List (Text × List SearchResult) × Session σ
  | [], session => ([], session)
  | framework :: frameworks, session =>
    let (found, session) := s.searchFramework query limit framework session
    let (rest, session) := s.searchFrameworks query limit frameworks session
    ((found.map fun results => (framework, results)).toList ++ rest, session)

/-- The response that merges what the frameworks have. -/
def mergeResults (query : Text) (limit : Nat) (found : List (Text × List SearchResult)) :
    SearchResponse :=
  let results := found.flatMap Prod.snd
  { query := query
    results := (Declaration.rank SearchResult.score results).take limit
    frameworksSearched := found.map Prod.fst
    totalFound := results.length }

/-- What a search finds. A blank query finds nothing. -/
def search (s : Service σ) (request : SearchRequest) (session : Session σ) :
    SearchResponse × Session σ :=
  let query := Text.trim request.query
  if query.isEmpty then ({ query := query }, session)
  else
    let limit := request.limitToUse s.settings.search
    let (found, session) :=
      s.searchFrameworks query limit (request.frameworksToSearch s.settings.search) session
    (mergeResults query limit found, session)

end Service
end ApiReference
