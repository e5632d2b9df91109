import ApiReference.Syntax.Grammar.Type

/-!
# Expressions

Expressions matter only for where they end and for the declarations inside them, so operators are
not ranked: an expression is a row of operands and operators.
-/

namespace ApiReference.Syntax.Lexeme

/-- Operators between two operands, longer ones before their beginnings. -/
def operators : List Text :=
  [">>>=", "===", "!==", ">>>", "<<=", ">>=", "**=", "&&=", "||=", "??=", "==", "!=", "<=", ">=",
   "&&", "||", "??", "<<", ">>", "**", "+=", "-=", "*=", "/=", "%=", "&=", "|=", "^=", "+", "-",
   "*", "/", "%", "&", "|", "^", "<", ">", "="].map String.toList

def operator (t : Text) : Nat :=
  if Text.startsWith "=>".toList t || Text.startsWith "++".toList t ||
      Text.startsWith "--".toList t then 0
  else match operators.find? fun o => Text.startsWith o t with
    | some o => o.length
    | none => 0

/-- The name of an attribute or element, which may hold hyphens, colons and dots. -/
def tagName (t : Text) : Nat :=
  match name t with
  | 0 => 0
  | k => k + ((t.drop k).takeWhile fun c => isNamePart c || c == '-' || c == ':' || c == '.').length

end ApiReference.Syntax.Lexeme

namespace ApiReference.Syntax.Grammar
open Rule

/-- A name that is no reserved word. -/
def freeName : R := leaf .identifier Lexeme.freeName

/-- Type arguments in an expression, where an angle bracket may also compare. -/
def expressionTypeArguments : R :=
  all [mark "<", commas (type false), opt (mark ","), mark ">"]

/-- Expressions between commas. -/
def sequence : R := commas expression

/-- The elements of a call. -/
def arguments : R :=
  all [mark "(", commaList (alt (seq (mark "...") expression) expression), closing ")"]

/-- An expression in parentheses, possibly with its type. -/
def parenthesized : R :=
  all [mark "(", named .sequence, opt (typeClause false), closing ")"]

/-- `x => y`, `async <T>(x: T): U => y`. -/
def arrowFunction : R :=
  let body := seq (mark "=>") (alt (named .block) expression)
  any [
    seq freeName body,
    all [word "async", sameLine, freeName, body],
    all [opt (word "async"), opt (named .typeParameters), named .parameters,
      opt (returnClause false), body]]

def functionExpression : R :=
  all [opt (word "async"), word "function", opt (mark "*"), opt identifier, callForm false,
    named .block]

/-- The name of a class; the words that introduce what it extends are none. -/
def className : R :=
  seq (notAhead (alt (word "extends") (word "implements"))) typeIdentifier

/-- `extends A<T>, B`. -/
def extendsClause : R :=
  node .extendsClause
    (seq (word "extends") (commas (seq (named .postfix_) (opt (expressionTypeArguments)))))

def implementsClause : R :=
  node .implementsClause (seq (word "implements") (commas (type false)))

def classHeritage : R :=
  node .classHeritage (alt (seq extendsClause (opt implementsClause)) implementsClause)

def classForm (name : R) : R :=
  all [name, opt (role .typeParameters (named .typeParameters)), opt classHeritage,
    role .body (named .classBody)]

def classExpression : R :=
  all [many (named .decorator), word "class", classForm (opt className)]

/-- A property of an object literal or a part of an object pattern. -/
def property : R :=
  any [
    seq (mark "...") expression,
    all [many (any [modifier "async", modifier "get", modifier "set"]), opt (mark "*"), memberName,
      callForm false, named .block],
    all [memberName, mark ":", expression],
    seq freeName (opt (seq (markUnless "=" "=>") expression))]

def objectLiteral : R := all [mark "\x7b", commaList property, mark "\x7d"]

def arrayLiteral : R :=
  all [mark "[", many (any [mark ",", seq (mark "...") expression, expression]), mark "]"]

/-- Markup in an expression. -/
def element : R :=
  let braced := all [mark "\x7b", opt (seq (opt (mark "...")) expression), mark "\x7d"]
  let setting := alt braced (seq (leaf .identifier Lexeme.tagName)
    (opt (seq (mark "=") (any [stringLiteral, braced, named .element]))))
  let content := any [named .element, braced, leaf .string Lexeme.elementText]
  all [mark "<", opt (seq (leaf .identifier Lexeme.tagName) (opt (expressionTypeArguments))),
    many setting,
    alt (seq (mark "/") (mark ">"))
      (all [mark ">", many content, mark "<", mark "/", opt (leaf .identifier Lexeme.tagName),
        mark ">"])]

def primaryExpression (markup : Bool) : R :=
  any ([
    stringLiteral,
    templateLiteral,
    numberLiteral,
    leaf .string Lexeme.regex,
    parenthesized,
    named .arrayLiteral,
    named .objectLiteral,
    functionExpression,
    classExpression,
    all [word "new", mark ".", identifier],
    seq (word "new") (named .postfix_),
    seq (word "import") (ahead (alt (mark "(") (mark "."))),
    word "this",
    word "super"] ++
    (if markup then [named .element] else []) ++
    [freeName, leaf .identifier Lexeme.privateName])

/-- What may follow type arguments for them not to be comparisons. -/
def afterTypeArguments : R :=
  any [mark "(", ahead templateLiteral, markUnless "." ".", mark ",", mark ";", mark ")", mark "]",
    mark "\x7b", mark "\x7d", mark ":", mark "=", mark "?.", word "implements", atEnd]

/-- An expression with member accesses, calls and the like. -/
def postfix_ (markup : Bool) : R :=
  let access := any [identifier, leaf .identifier Lexeme.privateName]
  seq (primaryExpression markup) (many (any [
    seq (markUnless "." ".") access,
    seq (mark "?.") (any [access, arguments, all [mark "[", named .sequence, closing "]"],
      seq (expressionTypeArguments) arguments]),
    all [mark "[", named .sequence, closing "]"],
    arguments,
    templateLiteral,
    seq (expressionTypeArguments) (ahead afterTypeArguments),
    seq sameLine (any [markUnless "!" "=", mark "++", mark "--"])]))

/-- An expression with operators before it. -/
def operand (markup : Bool) : R :=
  any ([
    seq (any [markUnless "!" "=", mark "~", mark "++", mark "--", mark "+", mark "-", word "typeof",
      word "void", word "delete"]) (named .operand),
    seq (word "await") (named .operand)] ++
    (if markup then [] else [seq (expressionTypeArguments) (named .operand)]) ++
    [named .postfix_])

def operation : R :=
  any [
    all [markUnless "?" ".", expression, mark ":", expression],
    seq (alt (leaf (.token []) Lexeme.operator) (alt (word "instanceof") (word "in")))
      (alt arrowFunction (named .operand)),
    all [sameLine, alt (word "as") (word "satisfies"), type true]]

def anyExpression : R :=
  node .expression (any [
    arrowFunction,
    all [word "yield", opt (mark "*"), opt expression],
    seq (named .operand) (many operation)])

/-- `@name`, `@name.of(x)`, `@(x)`. -/
def decorator : R :=
  node .decorator (seq (mark "@") (alt parenthesized
    (all [identifier, many (seq (markUnless "." ".") identifier), opt (expressionTypeArguments),
      opt arguments])))

end ApiReference.Syntax.Grammar
