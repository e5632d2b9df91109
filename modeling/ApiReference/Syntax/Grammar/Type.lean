import ApiReference.Syntax.Grammar.Construct

/-!
# Types, parameters and the members of object types

Only function types and object types are told apart by kind; every other type is one tree over its
text.
-/

namespace ApiReference.Syntax.Grammar
open Rule

/-- A possibly qualified name with type arguments. -/
def typeReference : R :=
  all [typeIdentifier, many (seq (markUnless "." ".") typeIdentifier), opt (named .typeArguments)]

/-- `<A, B>`. Nothing between the brackets leaves a name missing. -/
def typeArguments : R :=
  all [mark "<", alt (seq (ahead (mark ">")) (missing .typeIdentifier)) (commas (type false)),
    opt (mark ","), closing ">"]

/-- A type parameter with modifier, constraint and default. -/
def typeParameter : R :=
  node .typeParameter (all [
    opt (seq (word "const") (ahead typeIdentifier)),
    role .name typeIdentifier,
    opt (seq (alt (word "extends") (mark ":")) (type false)),
    opt (seq (mark "=") (type false))])

/-- `<T, U>`. Nothing between the brackets leaves a name missing. -/
def typeParameters : R :=
  let nameless := node .typeParameter (role .name (missing .typeIdentifier))
  node .typeParameters (all [mark "<", alt (seq (ahead (mark ">")) nameless) (commas typeParameter),
    opt (mark ","), mark ">"])

/-- `: T`. -/
def typeClause (breakable : Bool) : R :=
  role .type (node .typeClause (seq (mark ":") (type breakable)))

/-- What may stand for the type that a function returns: an assertion, a predicate or a type. -/
def returnForm (breakable : Bool) : R :=
  any [
    node .type (all [word "asserts", sameLine, identifier,
      opt (all [sameLineIf breakable, word "is", type breakable])]),
    node .type (all [identifier, sameLine, word "is", type breakable]),
    type breakable]

/-- `: T` after the parameters of a function. -/
def returnClause (breakable : Bool) : R :=
  role .returnType (node .typeClause (seq (mark ":") (returnForm breakable)))

/-- Where a pattern begins. -/
def patternStart : R := any [identifier, mark "\x7b", mark "[", mark "..."]

/-- A word that is a modifier if a pattern follows it. -/
def parameterModifier (w : String) : R := seq (word w) (ahead patternStart)

/-- What may stand before the pattern of a parameter. -/
def parameterModifiers : R :=
  seq (many (named .decorator)) (many (any [parameterModifier "public", parameterModifier "private",
    parameterModifier "protected", parameterModifier "override", parameterModifier "readonly"]))

def parameterPattern : R :=
  any [
    node .restPattern (seq (mark "...") (named .parameterPattern)),
    node .pattern (named .objectLiteral),
    node .pattern (named .arrayLiteral),
    identifier]

/-- A parameter, optional if it has a question mark. -/
def parameter : R :=
  alt
    (node .optionalParameter (all [parameterModifiers, role .pattern (named .parameterPattern),
      mark "?", opt (typeClause false), opt initializer]))
    (node .requiredParameter (all [parameterModifiers, role .pattern (named .parameterPattern),
      opt (typeClause false), opt initializer]))

/-- A colon whose type is not there. -/
def strayColon : R :=
  opt (seq (unreadable (mark ":")) (ahead (any [mark ";", mark ",", mark "\x7d", mark ")"])))

def parameters : R :=
  let gap := node .requiredParameter (role .pattern (missing .identifier))
  role .parameters (node .parameters (all [mark "(",
    opt (seq (gapped (seq parameter strayColon) gap (mark ",")) (opt (mark ","))), closing ")"]))

/-- Type parameters, parameters and the type returned. A colon without a type is unreadable. -/
def callForm (breakable : Bool) : R :=
  all [
    opt (role .typeParameters (named .typeParameters)),
    named .parameters,
    opt (alt (returnClause breakable)
      (seq (unreadable (mark ":")) (ahead (any [mark ";", mark ",", mark "\x7d"]))))]

def functionType (breakable : Bool) : R :=
  node .functionType (all [
    opt (role .typeParameters (named .typeParameters)),
    named .parameters,
    mark "=>",
    role .returnType (returnForm breakable)])

/-- An element of a tuple, possibly named, optional or spread. -/
def tupleElement : R :=
  any [
    all [opt (mark "..."), identifier, opt (mark "?"), mark ":", type false],
    all [mark "...", type false],
    all [type false, opt (mark "?")]]

/-- What `typeof` may be asked about. -/
def typeQuery : R :=
  seq
    (alt (all [word "import", mark "(", stringLiteral, mark ")"]) identifier)
    (many (any [
      seq (markUnless "." ".") (alt identifier (leaf .identifier Lexeme.privateName)),
      seq (mark "?.") identifier,
      all [sameLine, mark "[", type false, closing "]"],
      named .typeArguments]))

def primaryType : R :=
  any [
    all [mark "(", type false, closing ")"],
    all [mark "[", commaList tupleElement, closing "]"],
    named .objectType,
    templateLiteral,
    stringLiteral,
    numberLiteral,
    seq (alt (mark "-") (mark "+")) numberLiteral,
    all [word "import", mark "(", stringLiteral, mark ")",
      many (seq (markUnless "." ".") identifier), opt (named .typeArguments)],
    mark "*",
    typeReference]

/-- A type between the operators of unions and intersections. -/
def typeOperand (breakable : Bool) : R :=
  any [
    functionType breakable,
    all [opt (word "abstract"), word "new", opt (named .typeParameters), named .parameters,
      mark "=>", type breakable],
    seq (any [word "keyof", word "readonly", word "unique"]) (named (.typeOperand breakable)),
    all [word "infer", typeIdentifier, opt (seq (word "extends") (named (.unionType false)))],
    seq (word "typeof") typeQuery,
    seq primaryType (many (all [sameLineIf breakable, mark "[", opt (type false), closing "]"]))]

def unionType (breakable : Bool) : R :=
  all [
    opt (alt (mark "|") (mark "&")),
    sepBy (alt (markUnless "|" "|") (markUnless "&" "&")) (named (.typeOperand breakable))]

/-- A union, possibly tested and followed by the two types to choose from. -/
def conditionalType (breakable : Bool) : R :=
  seq (named (.unionType breakable))
    (opt (all [sameLineIf breakable, word "extends", named (.unionType false), mark "?",
      type false, mark ":", type breakable]))

/-- A type. A function type stands by itself, so that a declaration can be seen to have one. -/
def anyType (breakable : Bool) : R :=
  any [functionType breakable, node .objectType (seq (named .objectType) (notAhead typeContinues)),
    node .type (conditionalType breakable)]
where
  typeContinues : R := any [mark "|", mark "&", mark "[", word "extends"]

/-- The signs and the modifier before an index, as mapped types have them. -/
def indexModifier : R :=
  opt (seq (opt (alt (mark "-") (mark "+"))) (seq (word "readonly") (ahead (mark "["))))

/-- `[key: K]: V`, `[K in T as U]?: V`. -/
def indexSignature : R :=
  node .indexSignature (all [
    indexModifier,
    mark "[",
    alt
      (all [identifier, mark ":", type false])
      (all [typeIdentifier, word "in", type false, opt (seq (word "as") (type false))]),
    mark "]",
    any [
      typeClause true,
      role .type (node .typeClause
        (all [opt (alt (mark "-") (mark "+")), mark "?", mark ":", type true]))]])

def constructSignature : R :=
  node .constructSignature (all [
    opt (seq (word "abstract") (ahead (word "new"))), word "new",
    opt (role .typeParameters (named .typeParameters)), named .parameters, opt (typeClause true)])

def callSignature : R := node .callSignature (callForm true)

def memberModifiers (words : List String) : R := many (any (words.map modifier))

def methodSignature : R :=
  node .methodSignature (all [
    memberModifiers ["public", "private", "protected", "static", "override", "readonly", "async"],
    opt (any [modifier "get", modifier "set", mark "*"]),
    role .name memberName,
    opt (mark "?"),
    callForm true])

def propertySignature : R :=
  node .propertySignature (all [
    memberModifiers ["public", "private", "protected", "static", "override", "readonly"],
    role .name memberName,
    opt (mark "?"),
    opt (typeClause true)])

/-- A member of an interface or object type. -/
def typeMember : R :=
  any [indexSignature, constructSignature, callSignature, methodSignature, propertySignature]

/-- What stands between two members. -/
def memberEnd : R := any [mark ",", semicolon, ahead (mark "\x7d")]

/-- A mark between the opening brace and the first member. -/
def leadingMark : R := opt (seq (alt (mark ",") (mark ";")) (notAhead (mark "\x7d")))

def objectType : R :=
  node .objectType (all [mark "\x7b", leadingMark,
    many (all [typeMember, strayColon, memberEnd]), mark "\x7d"])

/-- The body of an interface. Text in it that is no member is passed over. -/
def interfaceBody : R :=
  node .interfaceBody (all [mark "\x7b", leadingMark,
    many (alt (all [typeMember, strayColon, alt memberEnd atEnd]) (unreadableUntil typeMember)),
    closingBrace])

end ApiReference.Syntax.Grammar
