import ApiReference.Syntax.Position

/-!
# Syntax trees

A tree has a kind, the text it spans with the position where that begins, the role it plays in its
parent, and children in source order. Punctuation and keywords are trees of their own, and so are
comments. Text that fits nowhere stands under an `unreadable` tree; a token that ought to be there
but is not is a leaf without text that is marked as missing.
-/

namespace ApiReference.Syntax

/-- What a tree is. -/
inductive Kind where
  | program
  | exportStatement
  | ambientDeclaration
  /-- `namespace N`. -/
  | internalModule
  /-- `module "m"`. -/
  | module
  | statementBlock
  /-- A statement that declares nothing by itself. -/
  | statement
  | functionSignature
  | functionDeclaration
  | generatorFunctionDeclaration
  | interfaceDeclaration
  | typeAliasDeclaration
  | classDeclaration
  | abstractClassDeclaration
  | enumDeclaration
  /-- `let`, `const`. -/
  | lexicalDeclaration
  /-- `var`. -/
  | variableDeclaration
  | variableDeclarator
  | typeParameters
  | typeParameter
  | parameters
  | requiredParameter
  | optionalParameter
  | restPattern
  | pattern
  | typeClause
  | functionType
  | objectType
  /-- A type of any other form. -/
  | type
  | extendsTypeClause
  | classHeritage
  | extendsClause
  | implementsClause
  | interfaceBody
  | classBody
  | enumBody
  | enumAssignment
  | propertySignature
  | publicFieldDefinition
  | methodSignature
  | abstractMethodSignature
  | methodDefinition
  | callSignature
  | constructSignature
  | indexSignature
  | computedName
  | propertyIdentifier
  | identifier
  | typeIdentifier
  | string
  | number
  | decorator
  /-- An expression of any form. -/
  | expression
  | comment
  | unreadable
  /-- A keyword or punctuation mark, by its spelling. -/
  | token (spelling : Text)
  deriving DecidableEq

/-- What a tree is to its parent. -/
inductive Role where
  | name
  | typeParameters
  | parameters
  | returnType
  | body
  | type
  | value
  | pattern
  | keyword
  deriving DecidableEq

/-- What a tree carries besides its children. -/
structure Label where
  kind : Kind
  role : Option Role
  start : Position
  text : Text
  missing : Bool
  deriving DecidableEq

/-- A syntax tree. -/
inductive Tree where
  | node (label : Label) (children : List Tree)

def Kind.name : Kind → Text
  | program => "program".toList
  | exportStatement => "export_statement".toList
  | ambientDeclaration => "ambient_declaration".toList
  | internalModule => "internal_module".toList
  | module => "module".toList
  | statementBlock => "statement_block".toList
  | statement => "statement".toList
  | functionSignature => "function_signature".toList
  | functionDeclaration => "function_declaration".toList
  | generatorFunctionDeclaration => "generator_function_declaration".toList
  | interfaceDeclaration => "interface_declaration".toList
  | typeAliasDeclaration => "type_alias_declaration".toList
  | classDeclaration => "class_declaration".toList
  | abstractClassDeclaration => "abstract_class_declaration".toList
  | enumDeclaration => "enum_declaration".toList
  | lexicalDeclaration => "lexical_declaration".toList
  | variableDeclaration => "variable_declaration".toList
  | variableDeclarator => "variable_declarator".toList
  | typeParameters => "type_parameters".toList
  | typeParameter => "type_parameter".toList
  | parameters => "formal_parameters".toList
  | requiredParameter => "required_parameter".toList
  | optionalParameter => "optional_parameter".toList
  | restPattern => "rest_pattern".toList
  | pattern => "pattern".toList
  | typeClause => "type_annotation".toList
  | functionType => "function_type".toList
  | objectType => "object_type".toList
  | type => "type".toList
  | extendsTypeClause => "extends_type_clause".toList
  | classHeritage => "class_heritage".toList
  | extendsClause => "extends_clause".toList
  | implementsClause => "implements_clause".toList
  | interfaceBody => "interface_body".toList
  | classBody => "class_body".toList
  | enumBody => "enum_body".toList
  | enumAssignment => "enum_assignment".toList
  | propertySignature => "property_signature".toList
  | publicFieldDefinition => "public_field_definition".toList
  | methodSignature => "method_signature".toList
  | abstractMethodSignature => "abstract_method_signature".toList
  | methodDefinition => "method_definition".toList
  | callSignature => "call_signature".toList
  | constructSignature => "construct_signature".toList
  | indexSignature => "index_signature".toList
  | computedName => "computed_property_name".toList
  | propertyIdentifier => "property_identifier".toList
  | identifier => "identifier".toList
  | typeIdentifier => "type_identifier".toList
  | string => "string".toList
  | number => "number".toList
  | decorator => "decorator".toList
  | expression => "expression".toList
  | comment => "comment".toList
  | unreadable => "ERROR".toList
  | token spelling => spelling

namespace Tree

def label : Tree → Label
  | node l _ => l

def children : Tree → List Tree
  | node _ ts => ts

def kind (t : Tree) : Kind := t.label.kind

def start (t : Tree) : Position := t.label.start

def text (t : Tree) : Text := t.label.text

/-- The position after the text of a tree. -/
def stop (t : Tree) : Position := t.start.after t.text

def leaf (kind : Kind) (start : Position) (text : Text) : Tree :=
  node ⟨kind, none, start, text, false⟩ []

def isComment (t : Tree) : Bool := t.kind == .comment

def withRole (r : Role) : Tree → Tree
  | node l ts => node { l with role := some r } ts

def child? (t : Tree) (r : Role) : Option Tree :=
  t.children.find? fun c => c.label.role == some r

def childOfKind? (t : Tree) (k : Kind) : Option Tree := t.children.find? fun c => c.kind == k

/-- Whether a keyword or punctuation mark is among the children. -/
def hasToken (t : Tree) (spelling : Text) : Bool :=
  t.children.any fun c => c.kind == .token spelling

mutual
/-- The number of trees in a tree, itself included. -/
def size : Tree → Nat
  | node _ ts => 1 + sizeAll ts

def sizeAll : List Tree → Nat
  | [] => 0
  | t :: ts => size t + sizeAll ts
end

theorem sizeAll_append (ts us : List Tree) : sizeAll (ts ++ us) = sizeAll ts + sizeAll us := by
  induction ts with
  | nil => rw [List.nil_append, sizeAll, Nat.zero_add]
  | cons t ts ih => rw [List.cons_append, sizeAll, sizeAll, ih, Nat.add_assoc]

mutual
/-- Whether anything in a tree is unreadable or missing. -/
def hasFault : Tree → Bool
  | node l ts => l.missing || l.kind == .unreadable || hasFaultAll ts

def hasFaultAll : List Tree → Bool
  | [] => false
  | t :: ts => hasFault t || hasFaultAll ts
end

end Tree
end ApiReference.Syntax
