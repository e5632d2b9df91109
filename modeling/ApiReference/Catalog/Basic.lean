import ApiReference.Text.Lowercase

/-!
# The catalog of frameworks

A framework is known by a key, ships its declarations in packages, and may have other names and
identifiers that give it away. A catalog is an ordered list of frameworks: look-ups take the first
entry that fits.
-/

namespace ApiReference

/-- One known framework. -/
structure Framework where
  key : Text
  /-- The packages that ship it; the first one is the primary package. -/
  packages : List Text
  /-- Other names, of one or more words. -/
  aliases : List Text
  /-- Identifiers that imply the framework. -/
  apiPatterns : List Text
  deriving DecidableEq, Repr

namespace Framework

/-- The package whose declarations describe the framework; without packages, its key. -/
def primaryPackage (f : Framework) : Text := f.packages.head?.getD f.key

/-- The entry with key, aliases and patterns in lower case; package names keep their letter case. -/
def normalized (f : Framework) : Framework :=
  { f with
    key := Text.lower f.key
    aliases := f.aliases.map Text.lower
    apiPatterns := f.apiPatterns.map Text.lower }

/-- The key without its hyphens, as people type it. -/
def compactKey (f : Framework) : Text := Text.without (· == '-') f.key

end Framework

structure Catalog where
  entries : List Framework
  deriving DecidableEq, Repr

namespace Catalog

def ofList (entries : List Framework) : Catalog := ⟨entries.map Framework.normalized⟩

/-- Puts an entry in place of the first one with its key, or at the end if there is none. -/
def put (entry : Framework) : List Framework → List Framework
  | [] => [entry]
  | f :: fs => if f.key = entry.key then entry :: fs else f :: put entry fs

/-- The catalog with further entries: a known key is replaced in place, a new one is appended. -/
def extend (catalog : Catalog) (extra : List Framework) : Catalog :=
  ⟨(ofList extra).entries.foldl (fun entries entry => put entry entries) catalog.entries⟩

/-- The entry with a key, in any letter case. -/
def get? (catalog : Catalog) (key : Text) : Option Framework :=
  let key := Text.lower key
  catalog.entries.find? fun f => f.key == key

/-- The first entry that lists a package, in any letter case. -/
def ownerOf? (catalog : Catalog) (package : Text) : Option Framework :=
  let package := Text.lower package
  catalog.entries.find? fun f => f.packages.any fun p => Text.lower p == package

def primaryPackage? (catalog : Catalog) (key : Text) : Option Text :=
  (catalog.get? key).map Framework.primaryPackage

/-- The keys of all entries that list an API pattern, which is given in lower case. -/
def keysForApi (catalog : Catalog) (api : Text) : List Text :=
  (catalog.entries.filter fun f => f.apiPatterns.any (· == api)).map Framework.key

def keys (catalog : Catalog) : List Text := catalog.entries.map Framework.key

end Catalog
end ApiReference
