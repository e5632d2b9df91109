import ApiReference.Proofs.Syntax.Lexeme.Scan
import ApiReference.Proofs.Syntax.Nesting

/-!
# What the rules of the grammar have in common

How deep the constructs nest, how their tokens are scanned, and that no rule asks about line ends where
another one may have read a semicolon or an opening brace. Main statements: `reads_program`,
`Rule.grammar_safe`.
-/

namespace ApiReference.Syntax

/-- How deep the rule of a construct nests between one token and the next. -/
def Construct.rank : Construct → Nat
  | type _ => 26
  | unionType _ => 21
  | typeOperand _ => 17
  | typeArguments => 2
  | typeParameters => 3
  | objectType => 3
  | parameters => 4
  | parameterPattern => 7
  | decorator => 3
  | expression => 28
  | operand => 23
  | postfix_ => 19
  | sequence => 30
  | objectLiteral => 2
  | arrayLiteral => 2
  | element => 2
  | block => 3
  | statement => 39
  | declaration => 16
  | classBody => 3

theorem Lexeme.Scan.nil {scan : Text → Nat} (known : Scan scan) : scan [] = 0 := by
  cases known with
  | @word w =>
      unfold Lexeme.word
      split
      · next rest strip =>
          cases w with
          | nil => split <;> rfl
          | cons => cases strip
      · rfl
  | @mark m =>
      unfold Lexeme.mark
      split
      · next rest strip =>
          cases m with
          | nil => split <;> rfl
          | cons => cases strip
      · rfl
  | _ => rfl

/-- A token of the grammar: unreadable text is scanned as any token, and a semicolon or an opening
brace is read wherever there is one. -/
structure Leaf (kind : Kind) (scan : Text → Nat) : Prop where
  known : Lexeme.Scan scan
  unreadable (none : kind = .unreadable) : scan = Lexeme.any
  opening (m : Text) (spelled : kind = .token m) (opens : m = [';'] ∨ m = ['{']) :
    scan = Lexeme.mark m []

/-- A kind of tokens that are told apart by how they are scanned. -/
def Kind.isPlain : Kind → Bool
  | .unreadable => false
  | .token m => m.isEmpty
  | _ => true

theorem Leaf.of_isPlain {kind : Kind} {scan : Text → Nat} (plain : kind.isPlain = true)
    (known : Lexeme.Scan scan) : Leaf kind scan := by
  refine ⟨known, fun none => ?_, fun m spelled opens => ?_⟩
  · rw [none] at plain
    cases plain
  · rw [spelled] at plain
    rcases opens with rfl | rfl <;> cases plain

theorem isNamePart_of_isLower {c : Char} (lower : c.isLower = true) :
    Lexeme.isNamePart c = true := by
  have letters : ∀ n < 26, Lexeme.isNamePart (Char.ofNat (97 + n)) = true := by decide
  have between : (decide (97 ≤ c.toNat) && decide (c.toNat ≤ 122)) = true := lower
  simp only [Bool.and_eq_true, decide_eq_true_eq] at between
  obtain ⟨le, le'⟩ := between
  have letter := letters (c.toNat - 97) (by omega)
  rwa [Nat.add_sub_cancel' le, Char.ofNat_toNat] at letter

namespace Rule
variable {N : Type}

theorem leaf_word (w : String) (letters : w.toList.all Char.isLower = true) :
    (word w : Rule N).EveryToken Leaf := by
  refine ⟨.word (List.all_eq_true.2 fun c member => ?_), nofun, fun m spelled opens => ?_⟩
  · exact isNamePart_of_isLower (List.all_eq_true.1 letters c member)
  cases spelled
  rcases opens with semicolon | brace
  · rw [semicolon] at letters
    cases letters
  · rw [brace] at letters
    cases letters

theorem leaf_mark (m : String) (signs : m.toList.all Lexeme.marks.contains = true)
    (closing : m.toList.length = 1 ∨ ∀ c ∈ m.toList, Lexeme.Closing c) :
    (mark m : Rule N).EveryToken Leaf := by
  refine ⟨.mark signs rfl closing, nofun, fun n spelled opens => ?_⟩
  cases spelled
  rfl

theorem leaf_markUnless (m forbidden : String) (signs : m.toList.all Lexeme.marks.contains = true)
    (others : forbidden.toList.all Lexeme.marks.contains = true)
    (closing : ∀ c ∈ m.toList, Lexeme.Closing c) :
    (markUnless m forbidden : Rule N).EveryToken Leaf := by
  refine ⟨.mark signs others (.inr closing), nofun, fun n spelled opens => ?_⟩
  cases spelled
  rcases opens with semicolon | brace
  · rw [semicolon] at closing
    exact absurd (closing _ List.mem_cons_self) (by decide)
  · rw [brace] at closing
    exact absurd (closing _ List.mem_cons_self) (by decide)

theorem leaf_atEnd : (atEnd : Rule N).EveryToken Leaf :=
  show Leaf .unreadable Lexeme.any from ⟨.any, fun _ => rfl, nofun⟩

end Rule

open Grammar Rule in
theorem leaf_grammar (d : Dialect) (x : Construct) : (grammar d x).EveryToken Leaf := by
  cases x <;> try cases ‹Bool›
  case' operand | postfix_ => cases d
  all_goals
    simp +decide only [anyName, identifier, typeIdentifier, stringLiteral, numberLiteral,
      templateLiteral, type, expression, sameLineIf, semicolon, closing, closingBrace, memberName,
      modifier, initializer, gapped, anyToken, unreadableUntil, freeName, expressionTypeArguments,
      Grammar.sequence, arguments, parenthesized, arrowFunction, functionExpression, className,
      extendsClause, implementsClause, classHeritage, classForm, classExpression, property,
      objectLiteral, arrayLiteral, element, primaryExpression, afterTypeArguments, postfix_,
      operand, operation, anyExpression, decorator, classModifiers, methodDefinition,
      abstractMethodSignature, fieldDefinition, classMemberEnd, classMember, classBody,
      classDeclaration, abstractClassDeclaration, overlongTail, functionDeclaration,
      generatorDeclaration, functionSignature, interfaceDeclaration, typeAliasDeclaration,
      enumMember, enumDeclaration, declarator, declarators, lexicalDeclaration,
      variableDeclaration, qualifiedName, internalModule, module_, ambientDeclaration, importAlias,
      anyDeclaration, fromClause, nameClause, importStatement, exportStatement, block, forHead,
      switchBody, controlStatement, expressionStatement, anyStatement, typeReference,
      typeArguments, typeParameter, typeParameters, typeClause, returnForm, returnClause,
      patternStart, parameterModifier, parameterModifiers, parameterPattern, parameter, strayColon,
      parameters, callForm, functionType, tupleElement, typeQuery, primaryType, typeOperand,
      unionType, conditionalType, anyType, anyType.typeContinues, indexModifier, indexSignature,
      constructSignature, callSignature, memberModifiers, methodSignature, propertySignature,
      typeMember, memberEnd, leadingMark, objectType, interfaceBody, typeBreakable, typeInner,
      unionBreakable, unionInner, operandBreakable, operandInner, postfixPlain, postfixMarkup,
      prefixedPlain, prefixedMarkup, grammar, all, Rule.any, opt, Rule.some, sepBy, commas,
      commaList, Rule.unreadable, EveryToken, List.foldr_cons, List.foldr_nil, List.map_cons,
      List.map_nil, List.cons_append, List.nil_append, and_self, reduceIte, leaf_word, leaf_mark,
      leaf_markUnless, leaf_atEnd, Leaf.of_isPlain, Lexeme.Scan.name, Lexeme.Scan.privateName,
      Lexeme.Scan.freeName, Lexeme.Scan.string, Lexeme.Scan.template, Lexeme.Scan.number,
      Lexeme.Scan.regex, Lexeme.Scan.operator, Lexeme.Scan.tagName, Lexeme.Scan.elementText,
      Lexeme.Scan.any]

theorem leaf_program : Grammar.program.EveryToken Leaf :=
  ⟨⟨.of_isPlain rfl .hashBang, trivial⟩, trivial,
    ⟨trivial, .of_isPlain rfl .any⟩, trivial, .of_isPlain rfl .any⟩

theorem nullable_grammar (d : Dialect) (x : Construct) : (grammar d x).nullable = false := by
  cases d <;> cases x <;> try cases ‹Bool›
  all_goals rfl

theorem depth_grammar_le (d : Dialect) (x : Construct) :
    (grammar d x).depth Construct.rank ≤ x.rank := by
  cases d <;> cases x <;> try cases ‹Bool›
  all_goals decide

theorem ranked_grammar (d : Dialect) : Ranked (grammar d) Construct.rank :=
  ⟨nullable_grammar d, depth_grammar_le d,
    fun x => (leaf_grammar d x).mono fun _ _ leaf => leaf.known.nil⟩

/-- A source text has fuel enough. -/
theorem reads_program (d : Dialect) (source : Text) :
    Reads (grammar d) Grammar.program ⟨Position.start, source⟩
      (Grammar.program.run (grammar d) (nestingBound source.length) ⟨Position.start, source⟩) := by
  refine reads_run (ranked_grammar d) (leaf_program.mono fun _ _ leaf => leaf.known.nil) ?_
  have depth : Grammar.program.depth Construct.rank ≤ Rule.stride * 16 := by decide
  rw [nestingBound, Nat.mul_add]
  exact Nat.add_le_add_left depth _

/-- Whether a construct may end in a semicolon. -/
def Construct.opens : Construct → Bool
  | statement | declaration => true
  | _ => false

namespace Rule

/-- Whether a rule may succeed without reading anything where a token comes next. -/
def idles : Grammar.R → Bool
  | leaf _ _ | named _ | notAhead (leaf .unreadable _) => false
  | node _ body | role _ body => body.idles
  | seq first second => first.idles && second.idles
  | alt preferred other => preferred.idles || other.idles
  | _ => true

/-- Whether a rule may ask where the line ends before it has read a token. -/
def asks : Grammar.R → Bool
  | sameLine | lineEnd _ => true
  | node _ body | role _ body | many body | ahead body | notAhead body => body.asks
  | seq first second => first.asks || (first.idles && second.asks)
  | alt preferred other => preferred.asks || other.asks
  | _ => false

/-- Whether two rules one after the other read a token that is no semicolon and no opening brace. -/
def guards : Grammar.R → Grammar.R → Bool
  | notAhead (leaf (.token [';']) _),
    seq (notAhead (leaf (.token ['{']) _)) (seq sameLine (seq (leaf _ scan) empty)) => scan ['<'] != 0
  | _, _ => false

/-- Whether a rule may end behind a semicolon or an opening brace. -/
def opens : Grammar.R → Bool
  | leaf _ scan => Lexeme.mayOpen scan
  | node _ body | role _ body | many body => body.opens
  | seq first second => !guards first second && (second.opens || (second.idles && first.opens))
  | alt preferred other => preferred.opens || other.opens
  | named x => x.opens
  | _ => false

/-- No part of a rule asks where the line ends behind one that may end behind a semicolon or an
opening brace. -/
def safe : Grammar.R → Bool
  | node _ body | role _ body | ahead body | notAhead body => body.safe
  | many body => body.safe && !(body.opens && body.asks)
  | seq first second => first.safe && second.safe && !(first.opens && second.asks)
  | alt preferred other => preferred.safe && other.safe
  | _ => true

theorem safe_program : Grammar.program.safe = true ∧ Grammar.program.asks = false := by decide

/-- What is asked of the rule of a construct. -/
structure Sound (x : Construct) (rule : Grammar.R) : Prop where
  safe : rule.safe = true
  asks : rule.asks = false
  opens : rule.opens = true → x.opens = true

theorem sound_grammar (d : Dialect) (x : Construct) : Sound x (grammar d x) := by
  cases d <;> cases x <;> try cases ‹Bool›
  all_goals exact ⟨by decide, by decide, by decide⟩

end Rule
end ApiReference.Syntax
