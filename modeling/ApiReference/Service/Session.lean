import ApiReference.Declaration.Reader
import ApiReference.Package.Name
import ApiReference.Query.Parse
import ApiReference.Service.Source
import ApiReference.Settings.Basic

/-!
# Services and their sessions

A service has settings and sources. In a session it keeps the readings of declaration files.
-/

namespace ApiReference
open ApiReference.Declaration (ApiSignature Reader)

/-- What does not change from request to request. -/
structure Service (σ : Type) where
  settings : Settings
  sources : Sources σ

/-- What requests leave behind for later ones. -/
structure Session (σ : Type) where
  /-- The state of the sources. -/
  outside : σ
  reader : Reader

/-- Declarations and the package that provided them. -/
structure ResolvedTypes where
  file : TypeFile
  package : Text
  /-- Whether the community provided them and not the package itself. -/
  fromCommunity : Bool
  deriving DecidableEq, Repr

variable {σ : Type}

/-- The session before any request. -/
def Session.start (settings : Settings) (outside : σ) : Session σ :=
  ⟨outside, Reader.empty settings.parser.cacheCapacity⟩

namespace Service

def catalog (s : Service σ) : Catalog := s.settings.catalog

def parseQuery (s : Service σ) (query : Text) : Query.Parsed := Query.parse s.catalog query

/-- The declarations that the community provides for a package without any. -/
def communityTypes (s : Service σ) (package : Text) (outside : σ) :
    Except Failure (Option ResolvedTypes) × σ :=
  let fallback := Package.definitelyTypedName package
  if fallback = package then (.ok none, outside)
  else
    match s.sources.version fallback none outside with
    | (.error e, outside) => (.error e, outside)
    | (.ok none, outside) => (.ok none, outside)
    | (.ok (some version), outside) =>
      match s.sources.types fallback version outside with
      | (.error e, outside) => (.error e, outside)
      | (.ok none, outside) => (.ok none, outside)
      | (.ok (some file), outside) => (.ok (some ⟨file, fallback, true⟩), outside)

/-- The declarations of a package: its own, else those of the community. -/
def resolveTypes (s : Service σ) (package version : Text) (outside : σ) :
    Except Failure (Option ResolvedTypes) × σ :=
  match s.sources.types package version outside with
  | (.error e, outside) => (.error e, outside)
  | (.ok (some file), outside) => (.ok (some ⟨file, package, false⟩), outside)
  | (.ok none, outside) => s.communityTypes package outside

end Service

/-- The signature that a concept names in a file. -/
def Session.extract (session : Session σ) (file : TypeFile) (concept : Text) :
    Option ApiSignature × Session σ :=
  let (api, reader) := session.reader.extract file.content concept file.path
  (api, { session with reader := reader })

/-- The signature that a concept names in the file that was answered, if one was. -/
def Session.extractAnswer (session : Session σ) (answer : Except Failure (Option TypeFile))
    (concept : Text) : Option (ApiSignature × TypeFile) × Session σ :=
  match answer with
  | .ok (some file) =>
    let (api, session) := session.extract file concept
    (api.map fun api => (api, file), session)
  | _ => (none, session)

/-- The best hits for a query in a file. -/
def Session.search (session : Session σ) (file : TypeFile) (query : Text) (limit : Nat) :
    List Declaration.Hit × Session σ :=
  let (hits, reader) := session.reader.search file.content query file.path limit
  (hits, { session with reader := reader })

end ApiReference
