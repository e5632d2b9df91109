import ApiReference.Syntax.Rule

/-!
# Constructs of the declaration language

The names under which rules of the grammar refer to one another, and small rules that all parts of
the grammar share.
-/

namespace ApiReference.Syntax

/-- A construct with a rule of its own. `breakable` says that the end of a line may end the type. -/
inductive Construct where
  | type (breakable : Bool)
  | unionType (breakable : Bool)
  | typeOperand (breakable : Bool)
  | typeArguments
  | typeParameters
  | objectType
  | parameters
  | parameterPattern
  | decorator
  | expression
  | operand
  | postfix_
  | sequence
  | objectLiteral
  | arrayLiteral
  | element
  | block
  | statement
  | declaration
  | classBody

namespace Grammar
open Rule

abbrev R := Rule Construct

def anyName (kind : Kind) : R := leaf kind Lexeme.name

def identifier : R := anyName .identifier

def typeIdentifier : R := anyName .typeIdentifier

def stringLiteral : R := leaf .string Lexeme.string

def numberLiteral : R := leaf .number Lexeme.number

def templateLiteral : R := leaf .string Lexeme.template

def type (breakable : Bool) : R := named (.type breakable)

def expression : R := named .expression

/-- A requirement that only holds where the end of a line matters. -/
def sameLineIf (breakable : Bool) : R := if breakable then sameLine else empty

/-- The end of a statement: a semicolon, or the end of its line. -/
def semicolon : R := alt (lineEnd false) (mark ";")

/-- A closing bracket, which may be missing before a semicolon. -/
def closing (m : String) : R := alt (mark m) (seq (ahead (mark ";")) (missing (.token m.toList)))

/-- A closing brace, which may be missing at the end of the text. -/
def closingBrace : R := alt (mark "\x7d") (seq atEnd (missing (.token ['}'])))

def memberName : R :=
  any [anyName .propertyIdentifier, leaf .identifier Lexeme.privateName, stringLiteral,
    numberLiteral, node .computedName (all [mark "[", expression, mark "]"])]

/-- A word that is a modifier if a member goes on after it. -/
def modifier (w : String) : R :=
  seq (word w) (ahead (any [anyName .identifier, leaf .identifier Lexeme.privateName, stringLiteral,
    numberLiteral, mark "[", mark "*"]))

/-- The value that something begins with. -/
def initializer : R := seq (markUnless "=" "=>") (role .value expression)

/-- One or more between commas, some of which may be absent. A gap before the first comma or after
the second item is a missing item; after the first item it leaves a comma unreadable. `stop` is what
ends a gap. -/
def gapped (item gap stop : R) : R :=
  all [alt item (seq (ahead (mark ",")) gap),
    opt (seq (unreadable (mark ",")) (ahead stop)),
    many (seq (mark ",") (alt item (seq (ahead stop) gap)))]

def anyToken : R := leaf .identifier Lexeme.any

/-- Unreadable text up to a place where a rule fits, or a closing brace. -/
def unreadableUntil (r : R) : R :=
  unreadable (some (all [notAhead r, notAhead (mark "\x7d"), anyToken]))

end Grammar
end ApiReference.Syntax
