import ApiReference.Syntax.Grammar.Statement

/-!
# Reading source text

Source text in either of two dialects is read into a tree; every text has one.
-/

namespace ApiReference.Syntax

/-- The dialects: with and without markup in expressions. -/
inductive Dialect where
  | plain
  | markup
  deriving DecidableEq, Repr

/-- The dialect of a file by the ending of its name, in any ASCII letter case. -/
def Dialect.ofFileName (name : Text) : Dialect :=
  if Text.endsWith ".tsx".toList (Text.asciiLower name) then markup else plain

namespace Grammar

def typeBreakable : R := anyType true

def typeInner : R := anyType false

def unionBreakable : R := unionType true

def unionInner : R := unionType false

def operandBreakable : R := typeOperand true

def operandInner : R := typeOperand false

def postfixPlain : R := postfix_ false

def postfixMarkup : R := postfix_ true

def prefixedPlain : R := operand false

def prefixedMarkup : R := operand true

end Grammar

open Grammar in
/-- The rule of each construct in a dialect. -/
def grammar (d : Dialect) : Construct → Rule Construct
  | .type true => typeBreakable
  | .type false => typeInner
  | .unionType true => unionBreakable
  | .unionType false => unionInner
  | .typeOperand true => operandBreakable
  | .typeOperand false => operandInner
  | .typeArguments => typeArguments
  | .typeParameters => typeParameters
  | .objectType => objectType
  | .parameters => parameters
  | .parameterPattern => parameterPattern
  | .decorator => decorator
  | .expression => anyExpression
  | .operand => if d = .markup then prefixedMarkup else prefixedPlain
  | .postfix_ => if d = .markup then postfixMarkup else postfixPlain
  | .sequence => sequence
  | .objectLiteral => objectLiteral
  | .arrayLiteral => arrayLiteral
  | .element => element
  | .block => block
  | .statement => anyStatement
  | .declaration => anyDeclaration
  | .classBody => classBody

/-- More nesting of rules than a text of a given length can need. -/
def nestingBound (length : Nat) : Nat := 64 * (length + 16)

def read (d : Dialect) (source : Text) : Tree :=
  let start : Cursor := ⟨Position.start, source⟩
  let (after, trees) :=
    (Grammar.program.run (grammar d) (nestingBound source.length) start).getD (start, [])
  let (stop, comments) := after.skip
  let left := if stop.rest.isEmpty then [] else
    [Tree.leaf .unreadable stop.position stop.rest]
  .node ⟨.program, none, Position.start, source, false⟩ (trees ++ comments ++ left)

end ApiReference.Syntax
