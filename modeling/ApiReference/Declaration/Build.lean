import ApiReference.Declaration.Clause
import ApiReference.Declaration.Documentation
import ApiReference.Syntax.Focus

/-!
# From trees to definitions

Which trees are declarations, and the definition that each of them makes. A declaration inside
another one is a declaration of its own; variables count only where they are visible from outside
the file or module.
-/

namespace ApiReference.Declaration
open ApiReference.Syntax (Tree Focus Kind Position)

/-- The text of a tree on one line without trailing semicolons and commas. -/
def signatureText (t : Tree) : Text :=
  Text.trimEnd (Text.trimEndOf (fun c => c == ';' || c == ',') (Text.collapse t.text))

def typeText (t : Tree) : Text :=
  Text.collapse (Text.trimStartOf (· == ':') (Text.trimStart t.text))

/-- The part of a tree's text between two positions in it. -/
def partOf (t : Tree) (first last : Position) : Text :=
  Syntax.takeBytes (last.offset - first.offset)
    (Syntax.dropBytes (first.offset - t.start.offset) t.text)

def isQuote (c : Char) : Bool := c == '"' || c.toNat == 39

/-- The text before the body of a declaration, on one line. -/
def headerText (t : Tree) : Text :=
  match t.child? .body with
  | some body => Text.collapse (partOf t t.start body.start)
  | none => signatureText t

def generics (t : Tree) : List Text :=
  match t.child? .typeParameters with
  | none => []
  | some params =>
    (params.children.filter fun c => c.kind == .typeParameter).map fun c => Text.collapse c.text

def parameter (t : Tree) : Parameter :=
  let pattern := t.child? .pattern
  let defaultValue := (t.child? .value).map fun v => Text.collapse v.text
  { name := Text.stripStartAll "...".toList
      ((pattern.map fun p => Text.collapse p.text).getD [])
    type := ((t.child? .type).map typeText).getD "any".toList
    optional := t.kind == .optionalParameter || defaultValue.isSome
    rest := pattern.any fun p => p.kind == .restPattern
    defaultValue := defaultValue
    description := none }

def parameters (t : Option Tree) : List Parameter :=
  match t with
  | none => []
  | some t =>
    (t.children.filter fun c => c.kind == .requiredParameter || c.kind == .optionalParameter).map
      parameter

/-- The type after the parameters, if it is not empty. -/
def returnType (t : Tree) : Option Text :=
  ((t.child? .returnType).map typeText).filter fun t => !t.isEmpty

def clauseTypes (clause : Tree) (keyword : String) : List Text :=
  let body := Text.collapse clause.text
  splitTopLevel ((Text.stripStart keyword.toList body).getD body)

def propertyMember (t : Tree) : Option Member :=
  (t.child? .name).map fun name =>
    { name := name.text
      kind := .property
      type := ((t.child? .type).map typeText).getD "any".toList
      optional := t.hasToken ['?']
      readonly := t.hasToken "readonly".toList }

/-- What follows the name of a method, without its body. -/
def callText (t name : Tree) : Text :=
  let stop := match t.child? .body with
    | some body => body.start
    | none => t.stop
  Text.trim (Text.trimEndOf (fun c => c == ';' || c == ',')
    (Text.trimStartOf (· == '?') (Text.collapse (partOf t name.stop stop))))

/-- A method by its tree; one that reads a value is an accessor. -/
def methodMember (t : Tree) : Option Member :=
  (t.child? .name).map fun name =>
    let accessor := t.hasToken "get".toList
    { name := name.text
      kind := if accessor then .accessor else .method
      type := if accessor then (returnType t).getD "any".toList else callText t name
      optional := t.hasToken ['?']
      readonly := t.hasToken "readonly".toList || accessor }

def indexMember (t : Tree) : Member :=
  let type := t.child? .type
  let stop := match type with
    | some type => type.start
    | none => t.stop
  { name := Text.trim (Text.stripStartAll "readonly".toList (Text.collapse (partOf t t.start stop)))
    kind := .index
    type := (type.map typeText).getD "any".toList
    optional := false
    readonly := t.hasToken "readonly".toList }

def member (t : Tree) : Option Member :=
  match t.kind with
  | .propertySignature | .publicFieldDefinition => propertyMember t
  | .methodSignature | .abstractMethodSignature | .methodDefinition => methodMember t
  | .callSignature => some ⟨"()".toList, .call, signatureText t, false, false⟩
  | .constructSignature => some ⟨"new".toList, .construct, signatureText t, false, false⟩
  | .indexSignature => some (indexMember t)
  | _ => none

/-- A member of an enumeration; one without a value is numbered automatically. -/
def enumMember (t : Tree) : Option Member :=
  let named := fun (name : Tree) (value : Option Text) =>
    (⟨Text.trimOf isQuote name.text, .enumValue, value.getD "auto".toList, false, true⟩ : Member)
  match t.kind with
  | .enumAssignment =>
    (t.child? .name).map fun name =>
      named name ((t.child? .value).map fun v => Text.collapse v.text)
  | .propertyIdentifier | .string | .number => some (named t none)
  | _ => none

/-- The members in the body of a declaration. -/
def membersBy (read : Tree → Option Member) (t : Tree) : List Member :=
  match t.child? .body with
  | none => []
  | some body => body.children.filterMap read

/-- A tree that declares something. -/
inductive Declared where
  | function (t : Tree)
  | interface (t : Tree)
  | typeAlias (t : Tree)
  | classType (t : Tree)
  | enumeration (t : Tree)
  /-- One variable and the statement that declares it. -/
  | variable_ (statement declarator : Tree)

/-- Whether the parent of a statement makes its variables visible from outside. -/
def isTopLevel (statement : Focus) : Bool :=
  match statement.parent? with
  | none => false
  | some parent =>
    match parent.kind with
    | .program | .exportStatement | .ambientDeclaration => true
    | .statementBlock =>
      match parent.parent?.map Focus.kind with
      | some .internalModule | some .module | some .ambientDeclaration => true
      | _ => false
    | _ => false

/-- The declaration that a tree is, if any. Declarations without a name declare nothing, unless the
name is lost to a fault. -/
def classify (f : Focus) : Option Declared :=
  let t := f.tree
  match t.kind with
  | .variableDeclarator =>
    match f.parent? with
    | none => none
    | some statement =>
      if (statement.kind == .lexicalDeclaration || statement.kind == .variableDeclaration) &&
          isTopLevel statement
      then some (.variable_ statement.tree t) else none
  | kind =>
    if (t.child? .name).isNone && !t.hasFault then none
    else match kind with
      | .functionSignature | .functionDeclaration => some (.function t)
      | .interfaceDeclaration => some (.interface t)
      | .typeAliasDeclaration => some (.typeAlias t)
      | .classDeclaration | .abstractClassDeclaration => some (.classType t)
      | .enumDeclaration => some (.enumeration t)
      | _ => none

def Declared.tree : Declared → Tree
  | function t | interface t | typeAlias t | classType t | enumeration t => t
  | variable_ _ declarator => declarator

/-- The name of a declaration without quotation marks, if there is one. -/
def Declared.name? (d : Declared) : Option Text :=
  ((d.tree.child? .name).map fun n => Text.trimOf isQuote n.text).filter fun n => !n.isEmpty

def locationOf (p : Position) : Location := ⟨p.row + 1, p.column + 1⟩

/-- The types a class extends or implements. -/
def heritage (t : Tree) (kind : Kind) (keyword : String) : List Text :=
  match (t.childOfKind? .classHeritage).bind fun h => h.childOfKind? kind with
  | some clause => clauseTypes clause keyword
  | none => []

/-- The definition of a variable. One whose type is a function type is a function. -/
def variableDefinition (statement declarator : Tree) (name : Text) (location : Location) :
    Definition :=
  let keyword := ((statement.child? .keyword <|> statement.children.head?).map Tree.text).getD
    "const".toList
  let signature := keyword ++ ' ' :: signatureText declarator
  let type := declarator.child? .type
  match type.bind fun t => t.childOfKind? .functionType with
  | some functionType =>
    { Definition.bare name .function signature location with
      parameters := parameters (functionType.child? .parameters)
      returnType := (functionType.child? .returnType).map fun t => Text.collapse t.text
      generics := generics functionType }
  | none =>
    { Definition.bare name .constant signature location with returnType := type.map typeText }

/-- The definition of a declaration of a given name, without documentation. -/
def Declared.definition (d : Declared) (name : Text) : Definition :=
  let location := locationOf d.tree.start
  match d with
  | function t =>
    { Definition.bare name .function (headerText t) location with
      parameters := parameters (t.child? .parameters)
      returnType := returnType t
      generics := generics t }
  | interface t =>
    { Definition.bare name .interface (signatureText t) location with
      generics := generics t
      extends_ := ((t.childOfKind? .extendsTypeClause).map (clauseTypes · "extends")).getD []
      members := membersBy member t }
  | typeAlias t =>
    { Definition.bare name .typeAlias (signatureText t) location with generics := generics t }
  | classType t =>
    { Definition.bare name .classType (signatureText t) location with
      generics := generics t
      extends_ := heritage t .extendsClause "extends"
      implements_ := heritage t .implementsClause "implements"
      members := membersBy member t }
  | enumeration t =>
    { Definition.bare name .enumeration (signatureText t) location with
      members := membersBy enumMember t }
  | variable_ statement declarator => variableDefinition statement declarator name location

/-- Wrappers before which the comments of what they wrap stand. -/
def isWrapper (k : Kind) : Bool := k == .exportStatement || k == .ambientDeclaration

/-- Climbs out of the wrappers of a focus given by its tree and the steps up. -/
def climb (t : Tree) : List Syntax.Frame → Focus
  | [] => ⟨t, []⟩
  | frame :: above =>
    if isWrapper frame.parent.kind then climb frame.parent above else ⟨t, frame :: above⟩

/-- The outermost tree before which comments of a declaration stand. Variables of one statement
share it. -/
def anchor (f : Focus) : Focus :=
  let start := if f.kind == .variableDeclarator then f.parent?.getD f else f
  climb start.tree start.above

/-- No more comments than this are read before a declaration. -/
def commentLimit : Nat := 50

/-- The texts of the comments nearest to a place among its left siblings, nearest first. A directive
ends them, and so does a comment on the line where what stands before it ends. -/
def commentsBefore : Nat → List Tree → List Text
  | 0, _ => []
  | _, [] => []
  | n + 1, sibling :: before =>
    if !sibling.isComment then []
    else if Text.startsWith "/// <".toList sibling.text then []
    else if before.head?.any fun t =>
        !t.isComment && t.stop.row == sibling.start.row then []
    else sibling.text :: commentsBefore n before

/-- The comments directly before a declaration, in source order. -/
def leadingComments (f : Focus) : List Text :=
  (commentsBefore commentLimit f.before).reverse

/-- The documented definition that a declaration makes, or the fault that it has no name. -/
def build (f : Focus) (d : Declared) : Except Fault Definition :=
  match d.name? with
  | none =>
    .error (.nameless (d.tree.kind.name.map fun c => if c = '_' then ' ' else c)
      (d.tree.start.row + 1))
  | some name =>
    .ok ((Documentation.ofComments (leadingComments (anchor f))).applyTo (d.definition name))

end ApiReference.Declaration
