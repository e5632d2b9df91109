import ApiReference.Declaration.Basic
import ApiReference.Text.Lowercase
import ApiReference.Text.Pattern

/-!
# Signatures of concepts

The definition that a concept names, with all its overloads and the types it refers to.
-/

namespace ApiReference.Declaration
open ApiReference.Text (Pattern)

/-- A type that a definition refers to and its own signature. -/
structure RelatedType where
  name : Text
  signature : Text
  deriving DecidableEq, Repr

/-- The answer for one concept. -/
structure ApiSignature where
  name : Text
  kind : DefinitionKind
  signature : Text
  description : Option Text
  parameters : List Parameter
  /-- The returned type with what the documentation says about it. -/
  returnType : Option Text
  generics : List Text
  /-- The signatures of all functions of the name, if there are two or more. -/
  overloads : Option (List Text)
  /-- The types referred to, in order of first reference. -/
  relatedTypes : List RelatedType
  examples : List Text
  seeAlso : List Text
  deprecated : Bool
  deprecationMessage : Option Text
  deriving DecidableEq, Repr

/-- Capitalized names of the language and its standard library. -/
def builtinTypes : List Text :=
  ["Array", "ReadonlyArray", "Promise", "PromiseLike", "Record", "Partial", "Required", "Readonly",
   "Pick", "Omit", "Exclude", "Extract", "NonNullable", "Parameters", "ReturnType", "InstanceType",
   "ConstructorParameters", "Awaited", "Uppercase", "Lowercase", "Capitalize", "Uncapitalize",
   "ThisType", "Map", "Set", "WeakMap", "WeakSet", "ReadonlyMap", "ReadonlySet", "Date", "RegExp",
   "Error", "Function", "Object", "String", "Number", "Boolean", "Symbol", "BigInt", "Iterable",
   "Iterator", "IterableIterator", "AsyncIterable", "AsyncIterator", "Generator", "AsyncGenerator",
   "ArrayLike", "JSON", "Math"].map String.toList

def typeReferencePattern : Pattern :=
  .all [.boundary, .one Char.isUpper, .many (.one fun c => c.isAlphanum || c == '_'), .boundary]

/-- The name in the text of a type parameter: all before white space or an equals sign. -/
def genericName (generic : Text) : Text :=
  generic.takeWhile fun c => !(Text.isBlank c || c == '=')

/-- The texts of a definition in which it may refer to types. -/
def referringTexts (d : Definition) : List Text :=
  d.parameters.map Parameter.type ++ d.returnType.toList ++ d.extends_ ++ d.implements_ ++
    d.members.map Member.type

/-- Whether a name is no reference wherever it occurs in a definition: its own name, one built in, or
one of its type parameters. -/
def isNoReference (d : Definition) (name : Text) : Bool :=
  name == d.name || builtinTypes.contains name || d.generics.any fun g => genericName g == name

/-- The references met so far, and the types found for them. -/
structure Survey where
  seen : List Text
  related : List RelatedType

/-- Goes on to the next name that occurs. A reference counts where it is met first, and if it is
declared. -/
def Survey.visit (file : File) (d : Definition) (s : Survey) (name : Text) : Survey :=
  if isNoReference d name || s.seen.contains name then s
  else
    { seen := s.seen ++ [name]
      related := s.related ++
        ((file.lookup? name).map fun found => ⟨found.name, found.signature⟩).toList }

/-- The types a definition refers to that are declared in the same file, in order of first
reference. -/
def relatedTypes (file : File) (d : Definition) : List RelatedType :=
  let names := (referringTexts d).flatMap typeReferencePattern.findAll
  (names.foldl (Survey.visit file d) ⟨[], []⟩).related

/-- The first of the definitions with the shortest name in bytes. -/
def shortestName : List Definition → Option Definition
  | [] => none
  | d :: ds =>
    match shortestName ds with
    | none => some d
    | some e =>
      if Text.byteLength e.name < Text.byteLength d.name then some e else some d

/-- The definition that a concept in lower case names: exactly, or else as part of a name that is as
short as possible. -/
def primary? (definitions : List Definition) (concept : Text) : Option Definition :=
  (definitions.find? fun d => Text.lower d.name == concept) <|>
    shortestName (definitions.filter fun d => Text.occursIn concept (Text.lower d.name))

/-- The signatures of all functions of a name. -/
def overloads (definitions : List Definition) (name : Text) : List Text :=
  (definitions.filter fun d => d.kind == .function && d.name == name).map Definition.signature

def extract (file : File) (concept : Text) : Option ApiSignature :=
  let concept := Text.lower (Text.trim concept)
  if concept.isEmpty then none
  else (primary? file.definitions concept).map fun d =>
    let overloads := overloads file.definitions d.name
    { name := d.name
      kind := d.kind
      signature := d.signature
      description := d.description
      parameters := d.parameters
      returnType := d.returnDisplay
      generics := d.generics
      overloads := if 1 < overloads.length then some overloads else none
      relatedTypes := relatedTypes file d
      examples := d.examples
      seeAlso := d.seeAlso
      deprecated := d.deprecated
      deprecationMessage := d.deprecationMessage }

end ApiReference.Declaration
