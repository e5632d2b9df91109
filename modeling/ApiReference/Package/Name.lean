import ApiReference.Text.Basic

/-!
# Package names

A package may belong to a scope, which is written before it with an at sign and a slash.
-/

namespace ApiReference.Package

/-- The scope of the packages that hold declarations made by the community. -/
def communityScope : Text := "@types/".toList

/-- The package that holds the community's declarations for a package. -/
def definitelyTypedName (package : Text) : Text :=
  if Text.startsWith communityScope package then package
  else match (Text.stripStart ['@'] package).bind (Text.splitOnce (· == '/')) with
    | some (scope, name) => communityScope ++ scope ++ "__".toList ++ name
    | none => communityScope ++ package

/-- The package as one segment of a path: a slash is written as an escape. -/
def pathSegment (package : Text) : Text :=
  package.flatMap fun c => if c == '/' then "%2f".toList else [c]

end ApiReference.Package
