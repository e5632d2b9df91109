import ApiReference.Service.Source

/-!
# A world of fixed answers

Sources that answer from tables, and fail for what is marked to fail.
-/

namespace ApiReference
open ApiReference.Package (CodeExample)

/-- Tables of answers. -/
structure World where
  /-- The versions of a package, the latest one first. -/
  versions : List (Text × List Text) := []
  versionsFailing : List Text := []
  /-- The main file of a package. -/
  types : List (Text × Text) := []
  /-- The other files of a package by path. -/
  files : List (Text × List (Text × Text)) := []
  barrelPaths : List (Text × List Text) := []
  typesFailing : List Text := []
  /-- The examples of a framework. -/
  examples : List (Text × List CodeExample) := []
  examplesFailing : List Text := []
  deriving DecidableEq, Repr

namespace World

/-- The value of the first entry with a key. -/
def look? {α : Type} (table : List (Text × α)) (key : Text) : Option α :=
  (table.find? fun e => e.1 == key).map Prod.snd

/-- The version for a request: the latest one, or the one that equals the request without its
leading letters v. -/
def resolve (versions : List Text) (request : Option Text) : Option Text :=
  match request with
  | none => versions.head?
  | some r =>
    if r == "latest".toList then versions.head?
    else versions.find? fun v => v == Text.trimStartOf (· == 'v') r

def fileOf (package version path content : Text) : TypeFile :=
  ⟨content, version, path,
    "memory://".toList ++ package ++ '@' :: version ++ '/' :: path⟩

/-- The answer of a table, or a failure for what is marked to fail. -/
def answerUnless {α : Type} (failing : List Text) (key : Text) (what : String) (answer : α) :
    Except Failure α :=
  if failing.contains key then
    .error (.fetch (what.toList ++ " unavailable for ".toList ++ key))
  else .ok answer

def mainPath : Text := "index.d.ts".toList

/-- The answers of the tables, which never change. -/
def sources (w : World) : Sources Unit where
  version package request _ :=
    (answerUnless w.versionsFailing package "registry"
      ((look? w.versions package).bind (resolve · request)), ())
  types package version _ :=
    (answerUnless w.typesFailing package "types"
      ((look? w.types package).map (fileOf package version mainPath)), ())
  file package version path _ :=
    (answerUnless w.typesFailing package "types"
      (((look? w.files package).bind fun files => look? files path).map
        (fileOf package version path)), ())
  barrelPaths package _ := (look? w.barrelPaths package).getD []
  examples framework _ _ :=
    (answerUnless w.examplesFailing framework "examples"
      ((look? w.examples framework).getD []), ())

end World
end ApiReference
