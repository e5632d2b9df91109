import ApiReference.Json.Reader
import ApiReference.Package.BarrelPaths
import ApiReference.Package.Manifest
import ApiReference.Package.Metadata
import ApiReference.Package.Name
import ApiReference.Service.Source
import ApiReference.Settings.Basic
import ApiReference.Web.Client

/-!
# Sources on the web

Versions come from a package registry, declarations and examples from a server that holds the files
of all packages.
-/

namespace ApiReference.Web
open ApiReference.Package (CodeExample Metadata)

def shortMetadata : Text := "application/vnd.npm.install-v1+json".toList

/-- The names that a file about a package may have. -/
def readmeNames : List Text := ["README.md", "readme.md", "Readme.md"].map String.toList

/-- An address of the settings, without slashes at its end. -/
def base (url : Text) : Text := Text.trimEndOf (· == '/') url

/-- A path in a package, without leading dots. -/
def relativePath (path : Text) : Text := Text.stripStartAll "./".toList path

def fileUrl (settings : FetchSettings) (package version path : Text) : Text :=
  base settings.cdnUrl ++ '/' :: package ++ '@' :: version ++ '/' :: relativePath path

def metadataUrl (settings : FetchSettings) (package : Text) : Text :=
  base settings.registryUrl ++ '/' :: Package.pathSegment package

variable {σ : Type}

def getFile (server : Server σ) (settings : FetchSettings) (package version path : Text)
    (c : Connection σ) : Except Problem (Option Text) × Connection σ :=
  get server version ⟨fileUrl settings package version path, none⟩ c

def readMetadata (package document : Text) : Except Problem Metadata :=
  let refused := fun e => Problem.decoding (package ++ " metadata: ".toList ++ e)
  match Json.readOrMessage document with
  | .error e => .error (refused e)
  | .ok v =>
    match Metadata.ofJson v with
    | .ok m => .ok m
    | .error e => .error (refused (e ++ Json.positionText document))

def version (server : Server σ) (settings : FetchSettings) (package : Text) (request : Option Text)
    (c : Connection σ) : Except Problem (Option Text) × Connection σ :=
  let (found, c) :=
    get server (request.getD "latest".toList) ⟨metadataUrl settings package, some shortMetadata⟩ c
  match found with
  | .error e => (.error e, c)
  | .ok none => (.ok none, c)
  | .ok (some document) => ((readMetadata package document).map (·.resolve? request), c)

def typeFile (server : Server σ) (settings : FetchSettings) (package version path : Text)
    (c : Connection σ) : Except Problem (Option TypeFile) × Connection σ :=
  let (found, c) := getFile server settings package version path c
  (found.map fun content => content.map fun content =>
    ⟨content, version, relativePath path, fileUrl settings package version path⟩, c)

/-- The path of the main declaration file that a manifest names, or the usual one. -/
def mainPath (package version manifest : Text) : Except Problem Text :=
  match Json.readOrMessage manifest with
  | .ok v => .ok ((Package.typesPath? v).getD Package.defaultTypesPath)
  | .error e =>
    .error (.decoding (package ++ '@' :: version ++ " package.json: ".toList ++ e))

/-- The main declaration file of a package. -/
def types (server : Server σ) (settings : FetchSettings) (package version : Text)
    (c : Connection σ) : Except Problem (Option TypeFile) × Connection σ :=
  let (found, c) := getFile server settings package version "package.json".toList c
  match found with
  | .error e => (.error e, c)
  | .ok none => (.ok none, c)
  | .ok (some manifest) =>
    match mainPath package version manifest with
    | .error e => (.error e, c)
    | .ok path => typeFile server settings package version path c

/-- The first of some files of the latest version of a package, with its address. -/
def firstFile (server : Server σ) (settings : FetchSettings) (package : Text) :
    List Text → Connection σ → Except Problem (Option (Text × Text)) × Connection σ
  | [], c => (.ok none, c)
  | name :: names, c =>
    let latest := "latest".toList
    let (found, c) := getFile server settings package latest name c
    match found with
    | .error e => (.error e, c)
    | .ok (some content) => (.ok (some (fileUrl settings package latest name, content)), c)
    | .ok none => firstFile server settings package names c

/-- The examples of a concept in the documentation of a framework's package. -/
def examples (server : Server σ) (settings : FetchSettings) (catalog : Catalog)
    (framework concept : Text) (c : Connection σ) :
    Except Problem (List CodeExample) × Connection σ :=
  let package := (catalog.primaryPackage? framework).getD framework
  let (found, c) := firstFile server settings package readmeNames c
  match found with
  | .error e => (.error e, c)
  | .ok none => (.ok [], c)
  | .ok (some (url, markdown)) => (.ok (Package.examplesIn markdown concept url), c)

/-- An answer whose problem is a failure of a source. -/
def failing {α τ : Type} (r : Except Problem α × τ) : Except Failure α × τ :=
  (r.1.mapError Problem.failure, r.2)

/-- The sources behind the addresses of the settings. -/
def sources (server : Server σ) (settings : Settings) : Sources (Connection σ) where
  version package request c := failing (version server settings.fetch package request c)
  types package version c := failing (types server settings.fetch package version c)
  file package version path c := failing (typeFile server settings.fetch package version path c)
  barrelPaths := Package.barrelPaths
  examples framework concept c :=
    failing (examples server settings.fetch settings.catalog framework concept c)

/-- Whether a text can stand in the header of a request: no control characters but the tab. -/
def isHeaderText (t : Text) : Bool :=
  t.all fun c => c == '\t' || (32 ≤ c.toNat && c.toNat != 127)

/-- The connection before any request; the name of the client must fit the header of a request. -/
def connect (settings : FetchSettings) (server : σ) : Except Problem (Connection σ) :=
  if isHeaderText settings.userAgent then .ok ⟨server, Store.ofList.empty⟩
  else .error (.configuration "Failed to create HTTP client: builder error".toList)

end ApiReference.Web
