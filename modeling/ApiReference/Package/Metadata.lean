import ApiReference.Json.Basic
import ApiReference.Number.Literal

/-!
# Published versions

A registry lists the published versions of a package and names some of them by tags.
-/

namespace ApiReference.Package
open ApiReference.Json (Value)

/-- What a registry knows of a package. -/
structure Metadata where
  /-- Tags and the versions they point at. -/
  tags : List (Text × Text)
  versions : List Text
  deriving DecidableEq, Repr

/-- The numbers of a version between dots and hyphens, up to the first part that is no number. -/
def numericParts (version : Text) : List Nat :=
  ((Text.splitOn (fun c => c == '.' || c == '-') version).map (Number.natural? 64)).takeWhile
    Option.isSome |>.filterMap id

/-- Whether a list of numbers comes before another, the first difference deciding. -/
def numbersPrecede : List Nat → List Nat → Bool
  | [], b => !b.isEmpty
  | _ :: _, [] => false
  | a :: as, b :: bs => a < b || (a == b && numbersPrecede as bs)

/-- The last of the greatest of some versions. -/
def greatestVersion : List Text → Option Text
  | [] => none
  | v :: vs =>
    match greatestVersion vs with
    | none => some v
    | some w => if numbersPrecede (numericParts w) (numericParts v) then some v else some w

namespace Metadata

/-- The version under a tag; of equal tags the last one counts. -/
def tagged? (m : Metadata) (tag : Text) : Option Text :=
  (m.tags.reverse.find? fun e => e.1 == tag).map Prod.snd

/-- The greatest version without prerelease part that begins with a request and a dot. -/
def greatestWithin (m : Metadata) (request : Text) : Option Text :=
  greatestVersion (m.versions.filter fun v =>
    !v.contains '-' && Text.startsWith (request ++ ['.']) v)

/-- The version for a request, which may be a tag, a version or the beginning of one. No request
means the latest version. -/
def resolve? (m : Metadata) (request : Option Text) : Option Text :=
  let request := (request.map fun r =>
    Text.trimStartOf (fun c => c == 'v' || c == 'V') (Text.trim r)).filter fun r => !r.isEmpty
  match request with
  | none => m.tagged? "latest".toList
  | some r => m.tagged? r <|> if m.versions.contains r then some r else m.greatestWithin r

end Metadata

/-- Why a document is no metadata, in the words for what it is instead. -/
def mismatch (found expected : Text) : Text :=
  "invalid type: ".toList ++ found ++ ", expected ".toList ++ expected

def describe : Value → Text
  | .null => "null".toList
  | .bool b => "boolean \x60".toList ++ (if b then "true".toList else "false".toList) ++ ['\x60']
  | .number literal =>
    (if literal.all fun c => Text.isAsciiDigit c || c == '-' then "integer \x60".toList
      else "floating point \x60".toList) ++ literal ++ ['\x60']
  | .string t => "string ".toList ++ '"' :: t ++ ['"']
  | .array _ => "sequence".toList
  | .object _ => "map".toList

def tagsOf : Value → Except Text (List (Text × Text))
  | .object fields => fields.mapM fun (tag, v) =>
    match v with
    | .string version => .ok (tag, version)
    | v => .error (mismatch (describe v) "a string".toList)
  | v => .error (mismatch (describe v) "a map".toList)

/-- The keys of a table of versions. -/
def versionsOf : Value → Except Text (List Text)
  | .object fields => .ok (fields.map Prod.fst)
  | v => .error (mismatch (describe v) "a map".toList)

/-- The metadata from values for the tags and for the versions, either of which may be missing. -/
def Metadata.ofParts (tags versions : Option Value) : Except Text Metadata := do
  let tags ← match tags with
    | some v => tagsOf v
    | none => .ok []
  let versions ← match versions with
    | some v => versionsOf v
    | none => .ok []
  return ⟨tags, versions⟩

/-- The metadata that a document stands for, given by name or by position. -/
def Metadata.ofJson : Value → Except Text Metadata
  | .object fields =>
    let v := Value.object fields
    Metadata.ofParts (v.field? "dist-tags".toList) (v.field? "versions".toList)
  | .array items => Metadata.ofParts items[0]? items[1]?
  | v => .error (mismatch (describe v) "struct PackageMetadata".toList)

end ApiReference.Package
