import ApiReference.Toml.Basic

/-!
# Strings, numbers and keys

The parts of a line of TOML. A reader takes its part off the start of a text and returns the rest;
every line ends in a line feed alone.
-/

namespace ApiReference.Toml
open ApiReference.Number (Binary64 bounded? splitSign)

def isBlank (c : Char) : Bool := c == ' ' || c == '\t'

def skipBlanks (t : Text) : Text := t.dropWhile isBlank

/-- Characters that text may contain as they are: all but the control characters, of which the tab
is allowed. -/
def isPlain (c : Char) : Bool := (32 ≤ c.toNat && c.toNat != 127) || c == '\t'

/-- Skips blanks, line ends and comments; a flag says that a comment is open. -/
def skipSpace : Bool → Text → Text
  | _, [] => []
  | false, c :: cs =>
    if isBlank c || c == '\n' then skipSpace false cs
    else if c == '#' then skipSpace true cs
    else c :: cs
  | true, c :: cs =>
    if c == '\n' then skipSpace false cs
    else if isPlain c then skipSpace true cs
    else c :: cs

/-- The text after the end of a line, before which only blanks and a comment may stand. -/
def endLine? (t : Text) : Option Text :=
  let t := skipBlanks t
  let t := if t.head? == some '#' then t.dropWhile isPlain else t
  match t with
  | [] => some []
  | c :: cs => if c == '\n' then some cs else none

def hexValue? (c : Char) : Option Nat :=
  if '0' ≤ c && c ≤ '9' then some (c.toNat - 48)
  else if 'a' ≤ c && c ≤ 'f' then some (c.toNat - 87)
  else if 'A' ≤ c && c ≤ 'F' then some (c.toNat - 55)
  else none

/-- The number a text of hexadecimal digits stands for. -/
def hexNumber? (t : Text) : Option Nat :=
  t.foldlM (fun n c => (hexValue? c).map (n * 16 + ·)) 0

/-- The character that so many hexadecimal digits stand for. -/
def readCode (count : Nat) (t : Text) : Option (Char × Text) := do
  let n ← hexNumber? (t.take count)
  if (t.take count).length = count && n.isValidChar then
    some (Char.ofNat n, t.drop count)
  else none

/-- The character of an escape after its backslash. -/
def readEscape : Text → Option (Char × Text)
  | '"' :: rest => some ('"', rest)
  | '\\' :: rest => some ('\\', rest)
  | 'b' :: rest => some (Char.ofNat 8, rest)
  | 't' :: rest => some ('\t', rest)
  | 'n' :: rest => some ('\n', rest)
  | 'f' :: rest => some (Char.ofNat 12, rest)
  | 'r' :: rest => some ('\r', rest)
  | 'u' :: rest => readCode 4 rest
  | 'U' :: rest => readCode 8 rest
  | _ => none

/-- A basic string on one line, after its opening quote. The fuel exceeds the length of the text. -/
def readBasic : Nat → Text → Option (Text × Text)
  | 0, _ => none
  | _ + 1, [] => none
  | n + 1, c :: rest =>
    if c == '"' then some ([], rest)
    else if c == '\\' then do
      let (e, rest) ← readEscape rest
      let (cs, rest) ← readBasic n rest
      return (e :: cs, rest)
    else if isPlain c then (readBasic n rest).map fun (cs, rest) => (c :: cs, rest)
    else none

/-- A literal string on one line, after its opening quote. -/
def readLiteral (quote : Char) : Text → Option (Text × Text)
  | [] => none
  | c :: rest =>
    if c == quote then some ([], rest)
    else if isPlain c then (readLiteral quote rest).map fun (cs, rest) => (c :: cs, rest)
    else none

/-- The end of a string of several lines: three quotes, before which one or two more may belong to
the text. -/
def closing? (quote : Char) : Text → Option (Text × Text)
  | a :: b :: c :: rest =>
    if a == quote && b == quote && c == quote then
      match rest with
      | d :: e :: more =>
        if d == quote && e == quote then some ([quote, quote], more)
        else if d == quote then some ([quote], e :: more)
        else some ([], rest)
      | [d] => if d == quote then some ([quote], []) else some ([], rest)
      | [] => some ([], [])
    else none
  | _ => none

/-- The text after blanks that end in a line feed and all white space after it. -/
def foldedLine? (t : Text) : Option Text :=
  match skipBlanks t with
  | '\n' :: rest => some (rest.dropWhile fun c => isBlank c || c == '\n')
  | _ => none

/-- A basic string of several lines, after its opening quotes. -/
def readBasicLines : Nat → Text → Option (Text × Text)
  | 0, _ => none
  | n + 1, t =>
    match closing? '"' t, t with
    | some found, _ => some found
    | none, [] => none
    | none, c :: rest =>
      if c == '\\' then
        match foldedLine? rest with
        | some rest => readBasicLines n rest
        | none => do
          let (e, rest) ← readEscape rest
          let (cs, rest) ← readBasicLines n rest
          return (e :: cs, rest)
      else if isPlain c || c == '\n' then
        (readBasicLines n rest).map fun (cs, rest) => (c :: cs, rest)
      else none

/-- A literal string of several lines, after its opening quotes. -/
def readLiteralLines (quote : Char) : Text → Option (Text × Text)
  | [] => none
  | c :: rest =>
    match closing? quote (c :: rest) with
    | some found => some found
    | none =>
      if isPlain c || c == '\n' then
        (readLiteralLines quote rest).map fun (cs, rest) => (c :: cs, rest)
      else none

/-- The apostrophe, which encloses literal strings. -/
def apostrophe : Char := Char.ofNat 39

/-- The text after a line feed at its very start, if there is one. -/
def skipLineFeed : Text → Text
  | '\n' :: rest => rest
  | rest => rest

/-- A string of any of the four kinds. -/
def readString (t : Text) : Option (Text × Text) :=
  match Text.stripStart "\"\"\"".toList t, Text.stripStart (List.replicate 3 apostrophe) t, t with
  | some rest, _, _ => readBasicLines (rest.length + 1) (skipLineFeed rest)
  | _, some rest, _ => readLiteralLines apostrophe (skipLineFeed rest)
  | _, _, c :: rest =>
    if c == '"' then readBasic (rest.length + 1) rest
    else if c == apostrophe then readLiteral apostrophe rest
    else none
  | _, _, [] => none

/-- Characters of numbers, dates and names of values. -/
def isWordChar (c : Char) : Bool :=
  c.isAlphanum || c == '+' || c == '-' || c == '_' || c == '.' || c == ':'

/-- Digits without the underscores between them; each underscore stands between two digits. -/
def digits? (isDigit : Char → Bool) (t : Text) : Option Text :=
  let groups := Text.splitOn (· == '_') t
  if groups.all fun g => !g.isEmpty && g.all isDigit then some groups.flatten else none

/-- Decimal digits that have no zero in front. -/
def whole? (t : Text) : Option Text := do
  let ds ← digits? Text.isAsciiDigit t
  if ds.head? == some '0' && ds.length != 1 then none else some ds

/-- The number that digits of a base stand for. -/
def ofDigits (base : Nat) (ds : Text) : Nat :=
  ds.foldl (fun n c => n * base + (hexValue? c).getD 0) 0

/-- An integer: decimal with an optional sign, or in one of three other bases without. -/
def integer? (t : Text) : Option Int :=
  match t with
  | '0' :: 'x' :: ds => do bounded? 64 (ofDigits 16 (← digits? (fun c => (hexValue? c).isSome) ds))
  | '0' :: 'o' :: ds => do bounded? 64 (ofDigits 8 (← digits? (fun c => '0' ≤ c && c ≤ '7') ds))
  | '0' :: 'b' :: ds => do bounded? 64 (ofDigits 2 (← digits? (fun c => c == '0' || c == '1') ds))
  | t => do
    let (negative, ds) := splitSign t
    let n := Text.toNat (← whole? ds)
    bounded? 64 (if negative then -(n : Int) else n)

def exponent? (t : Text) : Option Text := do
  let sign := t.takeWhile fun c => c == '+' || c == '-'
  let ds ← digits? Text.isAsciiDigit (t.drop sign.length)
  if sign.length ≤ 1 then some (sign ++ ds) else none

/-- A number with a fraction or an exponent, or a name of a number that is not finite. A decimal
that is too large is refused. -/
def float? (t : Text) : Option Binary64 := do
  let (negative, magnitude) := splitSign t
  if magnitude == "inf".toList then some (.infinite negative)
  else if magnitude == "nan".toList then some .undefined
  else
    let (mantissa, exponent) :=
      match Text.splitOnce (fun c => c == 'e' || c == 'E') magnitude with
      | some (mantissa, e) => (mantissa, some e)
      | none => (magnitude, none)
    let (whole, fraction) :=
      match Text.splitOnce (· == '.') mantissa with
      | some (whole, f) => (whole, some f)
      | none => (mantissa, none)
    if exponent.isNone && fraction.isNone then none
    else
      let whole ← whole? whole
      let fraction ← fraction.mapM (digits? Text.isAsciiDigit)
      let exponent ← exponent.mapM exponent?
      let x ← Binary64.unsigned? negative
        (whole ++ '.' :: fraction.getD [] ++ 'e' :: exponent.getD ['0'])
      if x = .infinite false then none else some x

def word? (t : Text) : Option Value :=
  if t == "true".toList then some (.boolean true)
  else if t == "false".toList then some (.boolean false)
  else (integer? t).map Value.integer <|> (float? t).map Value.float <|>
    (Datetime.read? t).map Value.datetime

/-- A word, or a date and a time with a space between them. -/
def readWord (t : Text) : Option (Value × Text) :=
  let word := t.takeWhile isWordChar
  let rest := t.dropWhile isWordChar
  match word? word, rest with
  | some (.datetime (.date d)), ' ' :: c :: more =>
    if Text.isAsciiDigit c then
      let time := (c :: more).takeWhile isWordChar
      (Datetime.readTime? d time).map fun moment =>
        (.datetime moment, (c :: more).dropWhile isWordChar)
    else some (.datetime (.date d), rest)
  | some v, _ => some (v, rest)
  | none, _ => none

def isKeyChar (c : Char) : Bool := c.isAlphanum || c == '_' || c == '-'

def readKey (t : Text) : Option (Text × Text) :=
  match t with
  | [] => none
  | c :: rest =>
    if c == '"' then readBasic (rest.length + 1) rest
    else if c == apostrophe then readLiteral apostrophe rest
    else
      let key := t.takeWhile isKeyChar
      if key.isEmpty then none else some (key, t.dropWhile isKeyChar)

/-- Keys with dots between them and blanks around each. -/
def readPath : Nat → Text → Option (List Text × Text)
  | 0, _ => none
  | n + 1, t => do
    let (key, rest) ← readKey (skipBlanks t)
    match skipBlanks rest with
    | '.' :: rest => do
      let (keys, rest) ← readPath n rest
      return (key :: keys, rest)
    | rest => return ([key], rest)

end ApiReference.Toml
