import ApiReference.Text.Basic

/-!
# Definitions

What is known about one declaration of a declaration file, and about a whole file: its definitions
in order and the faults met on the way.
-/

namespace ApiReference.Declaration

inductive DefinitionKind where
  | function
  | interface
  | typeAlias
  | classType
  | constant
  | enumeration
  deriving DecidableEq, Repr

namespace DefinitionKind

def name : DefinitionKind → Text
  | function => "function".toList
  | interface => "interface".toList
  | typeAlias => "type".toList
  | classType => "class".toList
  | constant => "constant".toList
  | enumeration => "enum".toList

/-- Kinds that describe a shape rather than a value. -/
def isTypeLike : DefinitionKind → Bool
  | interface | typeAlias | classType | enumeration => true
  | function | constant => false

end DefinitionKind

inductive MemberKind where
  | property
  | method
  | accessor
  | call
  | construct
  | index
  | enumValue
  deriving DecidableEq, Repr

def MemberKind.name : MemberKind → Text
  | property => "property".toList
  | method => "method".toList
  | accessor => "accessor".toList
  | call => "call".toList
  | construct => "construct".toList
  | index => "index".toList
  | enumValue => "enum_value".toList

/-- A place in source text, counted from one; columns count bytes. -/
structure Location where
  line : Nat
  column : Nat
  deriving DecidableEq, Repr

structure Parameter where
  name : Text
  /-- The declared type, `any` if there is none. -/
  type : Text
  optional : Bool
  rest : Bool
  defaultValue : Option Text
  description : Option Text
  deriving DecidableEq, Repr

/-- A member of an interface, class or enumeration. -/
structure Member where
  name : Text
  kind : MemberKind
  /-- The type of a property, the call form of a method or the value of an enumeration member. -/
  type : Text
  optional : Bool
  readonly : Bool
  deriving DecidableEq, Repr

structure Definition where
  name : Text
  kind : DefinitionKind
  /-- The source of the declaration on one line, without its body if it is a function. -/
  signature : Text
  location : Location
  description : Option Text
  parameters : List Parameter
  returnType : Option Text
  /-- What the documentation says about the returned value. -/
  returnsDoc : Option Text
  generics : List Text
  members : List Member
  extends_ : List Text
  implements_ : List Text
  /-- The reason for deprecation, if deprecated. -/
  deprecationMessage : Option Text
  deprecated : Bool
  seeAlso : List Text
  examples : List Text
  deriving DecidableEq, Repr

namespace Definition

/-- A definition of which no more than name, kind, signature and place is known. -/
def bare (name : Text) (kind : DefinitionKind) (signature : Text) (location : Location) :
    Definition :=
  ⟨name, kind, signature, location, none, [], none, none, [], [], [], [], none, false, [], []⟩

/-- The returned type with what the documentation says about it. -/
def returnDisplay (d : Definition) : Option Text :=
  match d.returnType, d.returnsDoc with
  | some type, some doc => some (type ++ " - ".toList ++ doc)
  | some type, none => some type
  | none, some doc => some doc
  | none, none => none

end Definition

/-- What is wrong at a line of a declaration file. -/
inductive Fault where
  /-- Text that fits nowhere. -/
  | unreadable (line : Nat)
  /-- A token that ought to be there. -/
  | missing (what : Text) (line : Nat)
  /-- A declaration without a name. -/
  | nameless (what : Text) (line : Nat)
  deriving DecidableEq, Repr

def Fault.message : Fault → Text
  | unreadable line => "syntax error at line ".toList ++ Text.ofNat line
  | missing what line => "missing ".toList ++ what ++ " at line ".toList ++ Text.ofNat line
  | nameless what line => what ++ " without a name at line ".toList ++ Text.ofNat line

/-- A declaration file: its definitions in order of declaration, and its faults. -/
structure File where
  definitions : List Definition
  faults : List Fault
  deriving DecidableEq, Repr

namespace File

/-- Types with one more definition, if it is a type and the first of its name. -/
def addType (types : List Definition) (d : Definition) : List Definition :=
  if d.kind.isTypeLike && !types.any (fun t => t.name == d.name) then types ++ [d] else types

/-- The interfaces, aliases, classes and enumerations, of each name the first one, in order of
declaration. -/
def types (file : File) : List Definition := file.definitions.foldl addType []

def typeNamed? (file : File) (name : Text) : Option Definition :=
  file.types.find? fun d => d.name == name

/-- The definition a name refers to: a type if there is one, else the first definition. -/
def lookup? (file : File) (name : Text) : Option Definition :=
  file.typeNamed? name <|> file.definitions.find? fun d => d.name == name

/-- The names of types, each once, in order of first declaration. -/
def typeNames (file : File) : List Text := file.types.map Definition.name

end File
end ApiReference.Declaration
