import ApiReference.Syntax.Lexeme
import ApiReference.Syntax.Tree

/-!
# Grammar rules

A rule says what may stand at a place in source text and what tree it is. Alternatives are tried in
order and the first that fits is kept. White space and comments may stand before every token; a
comment becomes a child of the innermost tree that has begun before it, so a comment before a
construct stands beside it and not within it.
-/

namespace ApiReference.Syntax

/-- A place in source text and the text from there on. -/
structure Cursor where
  position : Position
  rest : Text

namespace Cursor

/-- The cursor after a number of characters. -/
def advance (c : Cursor) (k : Nat) : Cursor :=
  ⟨c.position.after (c.rest.take k), c.rest.drop k⟩

def skipSpace (c : Cursor) : Cursor := c.advance (c.rest.takeWhile Lexeme.isSpace).length

/-- Passes white space and comments, at most as many comments as the bound has characters; the
comments are collected. -/
def skipWithin : Text → Cursor → Cursor × List Tree
  | [], c => (c, [])
  | _ :: bound, c =>
    let c := c.skipSpace
    match Lexeme.comment c.rest with
    | 0 => (c, [])
    | k =>
      let (after, more) := skipWithin bound (c.advance k)
      (after, Tree.leaf .comment c.position (c.rest.take k) :: more)

/-- Passes white space and comments: a text has fewer comments than characters. -/
def skip (c : Cursor) : Cursor × List Tree := skipWithin c.rest c

/-- The text from one position up to another, both at or after the cursor. -/
def between (c : Cursor) (first last : Position) : Text :=
  takeBytes (last.offset - first.offset) (dropBytes (first.offset - c.position.offset) c.rest)

end Cursor

/-- ASCII white space. -/
def isPlainSpace (c : Char) : Bool := c == ' ' || (9 ≤ c.toNat && c.toNat ≤ 13)

/-- Passes plain white space and comments, at most as many comments as the bound has characters. -/
def pastComments : Text → Text → Text
  | [], t => t
  | _ :: bound, t =>
    let t := t.dropWhile isPlainSpace
    match Lexeme.comment t with
    | 0 => t
    | k => pastComments bound (t.drop k)

/-- Whether a text begins with a word and no ASCII letter follows; a digit or an underscore may. -/
def beginsWord (w t : Text) : Bool :=
  match Text.stripStart w t with
  | some rest => !rest.head?.any Char.isAlpha
  | none => false

/-- Whether a statement may go on with a text that begins a new line. `beforeBody` says that a body
in braces could still follow. -/
def continuesLine (beforeBody : Bool) (t : Text) : Bool :=
  match t with
  | [] => false
  | c :: rest =>
    if "\x60,.;*%><=?^|&/:".toList.contains c then true
    else if c = '{' then beforeBody
    else if c = '+' || c = '-' then rest.head? != some c
    else if c = '!' then rest.head? == some '='
    else beginsWord "in".toList t || beginsWord "instanceof".toList t

/-- Whether a statement ends at a place without a semicolon: before a closing brace, at the end of
the text, or at the end of a line if the next one does not go on with it. -/
def endsStatement (beforeBody : Bool) (t : Text) : Bool :=
  match t.dropWhile fun c => isPlainSpace c && c != '\n' with
  | [] => true
  | '}' :: rest => (rest.dropWhile isPlainSpace).head? != some ':'
  | '\n' :: rest => !continuesLine beforeBody (pastComments rest rest)
  | _ => false

/-- Passes comments, at most as many as the bound has characters, up to a place where a statement
ends without a semicolon. -/
def readLineEnd (beforeBody : Bool) : Text → Cursor → Option (Cursor × List Tree)
  | [], c => if endsStatement beforeBody c.rest then some (c, []) else none
  | _ :: bound, c =>
    if endsStatement beforeBody c.rest then some (c, [])
    else
      let c := c.skipSpace
      match Lexeme.comment c.rest with
      | 0 => none
      | k => (readLineEnd beforeBody bound (c.advance k)).map fun (after, more) =>
          (after, Tree.leaf .comment c.position (c.rest.take k) :: more)

/-- What may stand at a place; `N` names the rules that rules refer to. -/
inductive Rule (N : Type) where
  /-- Nothing. -/
  | empty
  /-- A token. -/
  | leaf (kind : Kind) (scan : Text → Nat)
  /-- A tree over what the body reads. -/
  | node (kind : Kind) (body : Rule N)
  /-- The trees of the body in a role. -/
  | role (r : Role) (body : Rule N)
  | seq (first second : Rule N)
  | alt (preferred other : Rule N)
  /-- As many repetitions as there are. -/
  | many (body : Rule N)
  /-- The rule of a name. -/
  | named (n : N)
  /-- Reads nothing, but the body could be read here. -/
  | ahead (body : Rule N)
  /-- Reads nothing, and the body could not be read here. -/
  | notAhead (body : Rule N)
  /-- The next token is on the same line. -/
  | sameLine
  /-- The end of a statement without a semicolon. -/
  | lineEnd (beforeBody : Bool)
  /-- A token that is not there. -/
  | missing (kind : Kind)

/-- The tree over what has been read from a cursor on. Comments before its first token stay out. -/
def bundle (kind : Kind) (source after : Cursor) (trees : List Tree) : List Tree :=
  let before := trees.takeWhile Tree.isComment
  match trees.dropWhile Tree.isComment with
  | [] => before
  | first :: more =>
    before ++ [.node ⟨kind, none, first.start, source.between first.start after.position, false⟩
      (first :: more)]

namespace Rule
variable {N : Type}

/-- What a rule reads at a cursor. The fuel bounds the depth of nesting. -/
def run (grammar : N → Rule N) : Nat → Rule N → Cursor → Option (Cursor × List Tree)
  | 0, _, _ => none
  | n + 1, rule, c =>
    match rule with
    | empty => some (c, [])
    | leaf kind scan =>
      let (c, comments) := c.skip
      match scan c.rest with
      | 0 => none
      | k => some (c.advance k, comments ++ [Tree.leaf kind c.position (c.rest.take k)])
    | node kind body =>
      (run grammar n body c).map fun (after, trees) => (after, bundle kind c after trees)
    | role r body =>
      (run grammar n body c).map fun (after, trees) =>
        (after, trees.map fun t => if t.isComment then t else t.withRole r)
    | seq first second =>
      match run grammar n first c with
      | none => none
      | some (middle, trees) =>
        (run grammar n second middle).map fun (after, more) => (after, trees ++ more)
    | alt preferred other =>
      match run grammar n preferred c with
      | some reading => some reading
      | none => run grammar n other c
    | many body =>
      match run grammar n body c with
      | none => some (c, [])
      | some (middle, trees) =>
        if c.position.offset < middle.position.offset then
          (run grammar n (many body) middle).map fun (after, more) => (after, trees ++ more)
        else some (c, [])
    | named name => run grammar n (grammar name) c
    | ahead body => if (run grammar n body c).isSome then some (c, []) else none
    | notAhead body => if (run grammar n body c).isSome then none else some (c, [])
    | sameLine => if c.skip.1.position.row == c.position.row then some (c, []) else none
    | lineEnd beforeBody => readLineEnd beforeBody c.rest c
    | missing kind => some (c, [.node ⟨kind, none, c.position, [], true⟩ []])

def all (rules : List (Rule N)) : Rule N := rules.foldr seq empty

/-- The first of several rules that fits. -/
def any : List (Rule N) → Rule N
  | [] => notAhead empty
  | [r] => r
  | r :: rs => alt r (any rs)

def opt (r : Rule N) : Rule N := alt r empty

def some (r : Rule N) : Rule N := seq r (many r)

def word (w : String) : Rule N := leaf (.token w.toList) (Lexeme.word w.toList)

def mark (m : String) : Rule N := leaf (.token m.toList) (Lexeme.mark m.toList [])

/-- A punctuation mark that is not part of a longer one. -/
def markUnless (m forbidden : String) : Rule N :=
  leaf (.token m.toList) (Lexeme.mark m.toList forbidden.toList)

/-- One or more with a mark between neighbours. -/
def sepBy (separator : Rule N) (r : Rule N) : Rule N := seq r (many (seq separator r))

def commas (r : Rule N) : Rule N := sepBy (mark ",") r

/-- Any number between commas, with an optional comma at the end. -/
def commaList (r : Rule N) : Rule N := opt (seq (commas r) (opt (mark ",")))

/-- Unreadable text. -/
def unreadable (r : Rule N) : Rule N := node .unreadable r

/-- The end of the text. -/
def atEnd : Rule N := notAhead (leaf .unreadable Lexeme.any)

end Rule
end ApiReference.Syntax
