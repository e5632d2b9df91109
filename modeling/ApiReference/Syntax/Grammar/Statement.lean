import ApiReference.Syntax.Grammar.Expression

/-!
# Statements and declarations

The statements of the language. A statement that does not follow the grammar is unreadable up to the
next one that does, except that a few faults are mended in place: a closing bracket or brace that is
not there, a name that is not there, a mark too many.
-/

namespace ApiReference.Syntax.Grammar
open Rule

/-- Modifiers of a field or method of a class. -/
def classModifiers : R :=
  memberModifiers ["public", "private", "protected", "static", "override", "readonly", "async",
    "abstract", "declare", "accessor"]

def methodDefinition : R :=
  node .methodDefinition (all [
    memberModifiers ["public", "private", "protected", "static", "override", "readonly", "async"],
    opt (any [modifier "get", modifier "set", mark "*"]),
    role .name memberName,
    opt (mark "?"),
    callForm true,
    role .body (named .block)])

def abstractMethodSignature : R :=
  node .abstractMethodSignature (all [
    memberModifiers ["public", "private", "protected", "static"],
    modifier "abstract",
    memberModifiers ["override", "async"],
    opt (any [modifier "get", modifier "set", mark "*"]),
    role .name memberName,
    opt (mark "?"),
    callForm true])

def fieldDefinition : R :=
  node .publicFieldDefinition (all [
    many (named .decorator),
    classModifiers,
    role .name memberName,
    opt (any [mark "?", markUnless "!" "="]),
    opt (typeClause true),
    opt initializer])

def classMemberEnd : R := any [mark ",", semicolon, ahead (mark "\x7d")]

def classMember : R :=
  any [
    mark ";",
    seq (word "static") (named .block),
    seq indexSignature classMemberEnd,
    all [many (named .decorator), methodDefinition, opt semicolon],
    seq abstractMethodSignature classMemberEnd,
    all [many (named .decorator), methodSignature, alt (lineEnd true) classMemberEnd],
    all [fieldDefinition, strayColon, classMemberEnd]]

def classBody : R :=
  node .classBody (all [mark "\x7b", many (alt classMember (unreadableUntil classMember)),
    closingBrace])

def classDeclaration : R :=
  node .classDeclaration (all [many (named .decorator), word "class",
    classForm (role .name className), opt (lineEnd false)])

def abstractClassDeclaration : R :=
  node .abstractClassDeclaration (all [many (named .decorator), word "abstract", word "class",
    classForm (role .name className)])

/-- The rest of a signature up to its semicolon, where it should have ended. -/
def overlongTail : R :=
  seq (unreadable (some (all [notAhead (mark ";"), notAhead (mark "\x7b"), sameLine, anyToken])))
    (mark ";")

def functionDeclaration : R :=
  node .functionDeclaration (all [opt (word "async"), word "function", role .name identifier,
    callForm true, role .body (named .block), opt (lineEnd false)])

def generatorDeclaration : R :=
  node .generatorFunctionDeclaration (all [opt (word "async"), word "function", mark "*",
    role .name identifier, callForm true, role .body (named .block), opt (lineEnd false)])

def functionSignature : R :=
  node .functionSignature (all [opt (word "async"), word "function", role .name identifier,
    callForm true, any [lineEnd true, mark ";", overlongTail]])

def interfaceDeclaration : R :=
  node .interfaceDeclaration (all [word "interface", role .name typeIdentifier,
    opt (role .typeParameters (named .typeParameters)),
    opt (alt
      (node .extendsTypeClause (seq (word "extends") (commas (node .type typeReference))))
      (seq (unreadable (word "extends")) (ahead (mark "\x7b")))),
    role .body interfaceBody])

def typeAliasDeclaration : R :=
  node .typeAliasDeclaration (all [word "type", role .name typeIdentifier,
    opt (role .typeParameters (named .typeParameters)), mark "=",
    role .value (alt (type true) (seq (ahead (mark ";")) (missing .typeIdentifier))), semicolon])

/-- A member of an enumeration; an equals sign without a value is unreadable. -/
def enumMember : R :=
  alt
    (node .enumAssignment (seq (role .name memberName) initializer))
    (seq memberName
      (opt (seq (unreadable (mark "=")) (ahead (alt (mark ",") (mark "\x7d"))))))

def enumDeclaration : R :=
  node .enumDeclaration (all [opt (word "const"), word "enum", role .name identifier,
    role .body (node .enumBody (all [mark "\x7b",
      opt (seq (gapped enumMember (missing .propertyIdentifier) (mark ",")) (opt (mark ","))),
      closingBrace]))])

def declarator : R :=
  seq
    (node .variableDeclarator (all [
      role .name (any [node .pattern (named .objectLiteral), node .pattern (named .arrayLiteral),
        identifier]),
      opt (markUnless "!" "="),
      opt (typeClause true),
      opt initializer]))
    (opt (seq (unreadable (alt (mark ":") (mark "="))) (ahead (alt (mark ";") (mark ",")))))

def declarators : R :=
  gapped declarator (node .variableDeclarator (role .name (missing .identifier)))
    (alt (mark ",") (mark ";"))

def lexicalDeclaration : R :=
  node .lexicalDeclaration
    (all [role .keyword (alt (word "let") (word "const")), declarators, semicolon])

def variableDeclaration : R :=
  node .variableDeclaration (all [word "var", declarators, semicolon])

def qualifiedName : R := seq identifier (many (seq (markUnless "." ".") identifier))

def internalModule : R :=
  node .internalModule (all [word "namespace", sameLine, role .name qualifiedName,
    opt (role .body (named .block))])

def module_ : R :=
  node .module (all [word "module", sameLine, role .name (alt stringLiteral qualifiedName),
    opt (role .body (named .block))])

def ambientDeclaration : R :=
  node .ambientDeclaration (seq (word "declare")
    (alt (seq (word "global") (named .block)) (named .declaration)))

/-- `import A = B.C`. -/
def importAlias : R :=
  node .statement (all [word "import", opt (seq (word "type") (ahead identifier)), identifier,
    mark "=", alt (all [word "require", mark "(", stringLiteral, mark ")"]) qualifiedName,
    semicolon])

def anyDeclaration : R :=
  any [functionDeclaration, functionSignature, generatorDeclaration, classDeclaration,
    abstractClassDeclaration, interfaceDeclaration, typeAliasDeclaration, enumDeclaration,
    lexicalDeclaration, variableDeclaration, internalModule, module_, ambientDeclaration,
    importAlias]

/-- `from "m" with \x7b type: "json" \x7d`. -/
def fromClause : R :=
  all [word "from", stringLiteral,
    opt (seq (alt (word "with") (word "assert")) (named .objectLiteral))]

/-- Names in braces, each possibly renamed. -/
def nameClause : R :=
  let one := alt identifier stringLiteral
  all [mark "\x7b",
    commaList (all [opt (seq (alt (word "type") (word "typeof"))
        (seq (notAhead (alt (word "as") (mark ","))) (ahead one))), one,
      opt (seq (word "as") one)]), mark "\x7d"]

def importStatement : R :=
  node .statement (all [word "import", opt (seq (alt (word "type") (word "typeof"))
      (ahead (any [mark "\x7b", mark "*", seq (notAhead (word "from")) identifier]))),
    alt stringLiteral (seq
      (any [nameClause, all [mark "*", word "as", identifier],
        seq identifier (opt (seq (mark ",") (alt nameClause
          (all [mark "*", word "as", identifier]))))])
      fromClause),
    opt (seq (alt (word "with") (word "assert")) (named .objectLiteral)), semicolon])

def exportStatement : R :=
  let head := word "export"
  any [
    node .exportStatement (all [many (named .decorator), head, word "default",
      alt (named .declaration) (seq expression semicolon)]),
    node .exportStatement (all [head, mark "*",
      opt (seq (word "as") (alt identifier stringLiteral)), fromClause, semicolon]),
    node .exportStatement (all [head, opt (word "type"), nameClause, opt fromClause, semicolon]),
    node .exportStatement (all [head, word "type", mark "*",
      opt (seq (word "as") identifier), fromClause, semicolon]),
    node .exportStatement (all [head, mark "=", expression, semicolon]),
    node .exportStatement (all [head, word "as", word "namespace", identifier, semicolon]),
    node .exportStatement (all [many (named .decorator), head, named .declaration])]

/-- A body in braces. -/
def block : R :=
  node .statementBlock (all [mark "\x7b",
    many (alt (named .statement) (unreadableUntil (named .statement))), closingBrace,
    opt (lineEnd false)])

/-- What stands between the parentheses of a loop. -/
def forHead : R :=
  let binding := any [node .pattern (named .objectLiteral), node .pattern (named .arrayLiteral),
    named .postfix_]
  alt
    (all [opt (seq (any [word "var", word "let", word "const", word "using"])
        (notAhead (alt (word "in") (word "of")))), binding, alt (word "in") (word "of"),
      named .sequence])
    (all [any [lexicalDeclaration, variableDeclaration, seq (named .sequence) (mark ";"), mark ";"],
      opt (named .sequence), mark ";", opt (named .sequence)])

def switchBody : R :=
  all [mark "\x7b",
    many (all [alt (seq (word "case") (named .sequence)) (word "default"), mark ":",
      many (named .statement)]),
    mark "\x7d"]

def controlStatement : R :=
  let body := named .statement
  any [
    all [word "if", parenthesized, body, opt (seq (word "else") body)],
    all [word "for", opt (word "await"), mark "(", forHead, mark ")", body],
    all [word "while", parenthesized, body],
    all [word "do", body, word "while", parenthesized, opt semicolon],
    all [word "switch", parenthesized, switchBody],
    all [word "try", named .block,
      opt (all [word "catch", opt (all [mark "(", named .parameterPattern, opt (typeClause false),
        mark ")"]), named .block]),
      opt (seq (word "finally") (named .block))],
    all [word "with", parenthesized, body],
    all [alt (word "return") (word "throw"), opt (seq sameLine (named .sequence)), semicolon],
    all [alt (word "break") (word "continue"), opt (seq sameLine freeName), semicolon],
    all [word "debugger", semicolon],
    all [opt (word "await"), word "using", sameLine, declarators, semicolon],
    all [freeName, mark ":", body],
    mark ";"]

/-- An expression as a statement. After an expression in parentheses, text up to a semicolon may be
unreadable. -/
def expressionStatement : R :=
  alt
    (seq (named .sequence) semicolon)
    (seq parenthesized overlongTail)

def anyStatement : R :=
  any [exportStatement, named .declaration, importStatement, named .block,
    node .statement controlStatement, node .statement expressionStatement]

/-- A whole text. -/
def program : R :=
  seq (opt (leaf .string Lexeme.hashBang))
    (many (alt (named .statement)
      (unreadable (some (seq (notAhead (named .statement)) anyToken)))))

end ApiReference.Syntax.Grammar
