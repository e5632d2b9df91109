import ApiReference.Text.Basic

/-!
# Lexemes

How long the word, string, number, comment or other lexeme at the beginning of a text is; zero if
there is none.
-/

namespace ApiReference.Syntax.Lexeme

/-- White space between tokens. -/
def isSpace (c : Char) : Bool :=
  let n := c.toNat
  (Text.isBlank c && n != 0x85) || n == 0xFEFF || n == 0x2060 || n == 0x200B

/-- Characters that have a meaning of their own and stand in no name. -/
def marks : Text := ":;\x60\"'@#.,|^&<=>+-*/\\%?!~()[]\x7b\x7d".toList

def isNameStart (c : Char) : Bool :=
  0x20 ≤ c.toNat && !isSpace c && !c.isDigit && !marks.contains c

def isNamePart (c : Char) : Bool := isNameStart c || c.isDigit

def isHex (c : Char) : Bool := c.isDigit || ('a' ≤ c && c ≤ 'f') || ('A' ≤ c && c ≤ 'F')

def unicodeEscape : Text → Nat
  | '\\' :: 'u' :: '{' :: rest =>
    let digits := (rest.takeWhile isHex).length
    if 0 < digits && (rest.drop digits).head? == some '}' then digits + 4 else 0
  | '\\' :: 'u' :: rest =>
    if ((rest.take 4).takeWhile isHex).length == 4 then 6 else 0
  | _ => 0

/-- The rest of a name. The number says how many characters at the front end an escape that has
begun before them. -/
def nameRest : Nat → Text → Nat
  | _, [] => 0
  | k + 1, _ :: rest => 1 + nameRest k rest
  | 0, c :: rest =>
    if isNamePart c then 1 + nameRest 0 rest
    else match unicodeEscape (c :: rest) with
      | 0 => 0
      | k + 1 => 1 + nameRest k rest

def name (t : Text) : Nat :=
  match t with
  | [] => 0
  | c :: rest =>
    if isNameStart c then 1 + nameRest 0 rest
    else match unicodeEscape t with
      | 0 => 0
      | k + 1 => 1 + nameRest k rest

/-- A name with a number sign before it. -/
def privateName : Text → Nat
  | '#' :: rest => match name rest with
    | 0 => 0
    | k => k + 1
  | _ => 0

/-- A given word, not followed by more of a name. -/
def word (w : Text) (t : Text) : Nat :=
  match Text.stripStart w t with
  | some rest => if rest.head?.any isNamePart then 0 else w.length
  | none => 0

/-- Given characters, not followed by one of a list. -/
def mark (m : Text) (forbidden : Text) (t : Text) : Nat :=
  match Text.stripStart m t with
  | some rest => if rest.head?.any forbidden.contains then 0 else m.length
  | none => 0

/-- Words that are never names where an expression begins. -/
def reserved : List Text :=
  ["break", "case", "catch", "class", "const", "continue", "debugger", "default", "delete", "do",
   "else", "enum", "export", "extends", "finally", "for", "function", "if", "import", "in",
   "instanceof", "new", "return", "super", "switch", "this", "throw", "try", "typeof", "var",
   "void", "while", "with"].map String.toList

/-- A name that is no reserved word. -/
def freeName (t : Text) : Nat :=
  match name t with
  | 0 => 0
  | k => if reserved.contains (t.take k) then 0 else k

/-- The rest of a quoted text after its opening quote, its closing quote included. -/
def quotedRest (quote : Char) : Text → Option Nat
  | [] => none
  | c :: rest =>
    if c = '\\' then
      match rest with
      | [] => none
      | _ :: rest => (quotedRest quote rest).map (· + 2)
    else if c = quote then some 1
    else if c = '\n' || c = '\r' then none
    else (quotedRest quote rest).map (· + 1)

/-- A quoted string on one line. -/
def string : Text → Nat
  | c :: rest =>
    if c = '"' || c.toNat = 39 then ((quotedRest c rest).map (· + 1)).getD 0 else 0
  | [] => 0

/-- What a scan of a template is inside of. -/
inductive Nesting where
  | template
  | braces
  deriving DecidableEq

/-- The rest of a template literal after its opening back quote. Substitutions hold balanced braces,
strings and further templates. The number says how many characters at the front end an escape,
string or mark that has begun before them. -/
def templateRest : Nat → List Nesting → Text → Option Nat
  | _, [], _ => some 0
  | _, _, [] => none
  | k + 1, inside, _ :: rest => (templateRest k inside rest).map (· + 1)
  | 0, .template :: outer, c :: rest =>
    if c.toNat = 0x60 then (templateRest 0 outer rest).map (· + 1)
    else if c = '\\' then (templateRest 1 (.template :: outer) rest).map (· + 1)
    else if c = '$' && rest.head? == some '{' then
      (templateRest 1 (.braces :: .template :: outer) rest).map (· + 1)
    else (templateRest 0 (.template :: outer) rest).map (· + 1)
  | 0, .braces :: outer, c :: rest =>
    if c = '}' then (templateRest 0 outer rest).map (· + 1)
    else if c = '{' then (templateRest 0 (.braces :: .braces :: outer) rest).map (· + 1)
    else if c.toNat = 0x60 then
      (templateRest 0 (.template :: .braces :: outer) rest).map (· + 1)
    else (templateRest (string (c :: rest) - 1) (.braces :: outer) rest).map (· + 1)

/-- A template literal with its substitutions. -/
def template : Text → Nat
  | c :: rest =>
    if c.toNat = 0x60 then
      ((templateRest 0 [.template] rest).map (· + 1)).getD 0
    else 0
  | [] => 0

/-- Digits, low lines and letters of a number: all forms are told apart by what follows the zero. -/
def numberPart (c : Char) : Bool := c.isAlphanum || c == '_'

/-- The fraction and exponent of a decimal number after its whole part. -/
def numberTail (t : Text) : Nat :=
  let whole := (t.takeWhile fun c => c.isDigit || c == '_').length
  let fraction := match t.drop whole with
    | '.' :: rest => 1 + (rest.takeWhile fun c => c.isDigit || c == '_').length
    | _ => 0
  let exponent := match t.drop (whole + fraction) with
    | e :: rest =>
      if e == 'e' || e == 'E' then
        match rest with
        | sign :: more =>
          if sign == '+' || sign == '-' then 2 + (more.takeWhile Char.isDigit).length
          else 1 + (rest.takeWhile Char.isDigit).length
        | [] => 0
      else 0
    | [] => 0
  let big := if (t.drop (whole + fraction + exponent)).head? == some 'n' then 1 else 0
  whole + fraction + exponent + big

def number : Text → Nat
  | '0' :: c :: rest =>
    if ['x', 'X', 'o', 'O', 'b', 'B'].contains c then 2 + (rest.takeWhile numberPart).length
    else numberTail ('0' :: c :: rest)
  | c :: rest =>
    if c.isDigit then numberTail (c :: rest)
    else if c == '.' && rest.head?.any Char.isDigit then numberTail (c :: rest)
    else 0
  | [] => 0

/-- The rest of a regular expression after its first slash. -/
def regexRest : Bool → Text → Option Nat
  | _, [] => none
  | inClass, c :: rest =>
    if c = '\n' then none
    else if c = '\\' then
      match rest with
      | [] => none
      | _ :: rest => (regexRest inClass rest).map (· + 2)
    else if c = '[' then (regexRest true rest).map (· + 1)
    else if c = ']' then (regexRest false rest).map (· + 1)
    else if c = '/' && !inClass then some (1 + (rest.takeWhile Char.isAlpha).length)
    else (regexRest inClass rest).map (· + 1)

def regex : Text → Nat
  | '/' :: c :: rest =>
    if c = '*' || c = '/' then 0
    else ((regexRest false (c :: rest)).map (· + 1)).getD 0
  | _ => 0

def blockCommentRest : Text → Option Nat
  | '*' :: '/' :: _ => some 2
  | _ :: rest => (blockCommentRest rest).map (· + 1)
  | [] => none

def isLineEnd (c : Char) : Bool :=
  c == '\n' || c == '\r' || c.toNat == 0x2028 || c.toNat == 0x2029

def comment : Text → Nat
  | '/' :: '/' :: rest => 2 + (rest.takeWhile fun c => !isLineEnd c).length
  | '/' :: '*' :: rest => ((blockCommentRest rest).map (· + 2)).getD 0
  | _ => 0

/-- The first line of a script that names its interpreter. -/
def hashBang : Text → Nat
  | '#' :: '!' :: rest => 2 + (rest.takeWhile (· != '\n')).length
  | _ => 0

/-- Characters between the tags of an element. -/
def elementText (t : Text) : Nat :=
  (t.takeWhile fun c => c != '<' && c != '>' && c != '{' && c != '}').length

/-- Any token: a name, string, number or single character. -/
def any (t : Text) : Nat :=
  match name t with
  | 0 => match string t with
    | 0 => match number t with
      | 0 => if t.isEmpty then 0 else 1
      | k => k
    | k => k
  | k => k

end ApiReference.Syntax.Lexeme
