import ApiReference.Toml.Lexical

/-!
# Writing TOML

A string is written in the plainest of the four forms that can hold it. Arrays of two items or more
have one item per line. A document is a list of parts with blank lines between them.
-/

namespace ApiReference.Toml

/-- Characters that only an escape can write. -/
def isControl (c : Char) : Bool := !(isPlain c || c == '\n')

/-- The length of the longest run of a character, and of the run at the start. -/
def runs (c : Char) : Text → Nat × Nat
  | [] => (0, 0)
  | d :: t =>
    let (longest, first) := runs c t
    if d = c then (max longest (first + 1), first + 1) else (longest, 0)

/-- The length of the longest run of a character. -/
def longestRun (c : Char) (t : Text) : Nat := (runs c t).1

/-- The four forms of a string. -/
inductive Form where
  | basic
  | literal
  | basicLines
  | literalLines
  deriving DecidableEq, Repr

/-- The form in which a text is written: without escapes if there is one that needs none, and on one
line if it has no line feed and such a form exists. -/
def formOf (t : Text) : Form :=
  let control := t.any isControl
  let lines := t.contains '\n'
  let backslash := t.contains '\\'
  let quotes := longestRun '"' t
  let apostrophes := longestRun apostrophe t
  if !control && !lines && !backslash && quotes = 0 then .basic
  else if !control && !lines && apostrophes = 0 then .literal
  else if !control && !backslash && quotes ≤ 2 then .basicLines
  else if !control && apostrophes ≤ 2 then .literalLines
  else if lines then .basicLines
  else .basic

def hexDigit (n : Nat) : Char := if n < 10 then Char.ofNat (48 + n) else Char.ofNat (55 + n)

/-- A character other than a quote in a basic string, which may have several lines. -/
def escape (lines : Bool) (c : Char) : Text :=
  match c.toNat with
  | 0x08 => "\\b".toList
  | 0x09 => "\\t".toList
  | 0x0A => if lines then ['\n'] else "\\n".toList
  | 0x0C => "\\f".toList
  | 0x0D => "\\r".toList
  | 0x5C => "\\\\".toList
  | n =>
    if n < 0x20 || n = 0x7F then "\\u00".toList ++ [hexDigit (n / 16), hexDigit (n % 16)] else [c]

/-- The characters of a basic string; so many quotes in a row stay as they are, the next one is
escaped and ends the row. -/
def escapes (lines : Bool) (allowed : Nat) : Nat → Text → Text
  | _, [] => []
  | row, c :: t =>
    if c = '"' then
      if row < allowed then c :: escapes lines allowed (row + 1) t
      else '\\' :: '"' :: escapes lines allowed 0 t
    else escape lines c ++ escapes lines allowed 0 t

/-- The line feed after the opening of a string that has line feeds of its own. -/
def opening (t : Text) : Text := if t.contains '\n' then ['\n'] else []

def triple (quote : Char) : Text := List.replicate 3 quote

def writeString (t : Text) : Text :=
  match formOf t with
  | .basic => '"' :: escapes false 0 0 t ++ ['"']
  | .literal => apostrophe :: t ++ [apostrophe]
  | .basicLines => triple '"' ++ opening t ++ escapes true 2 0 t ++ triple '"'
  | .literalLines => triple apostrophe ++ opening t ++ t ++ triple apostrophe

/-- A key, in quotes if it needs them. -/
def writeKey (key : Text) : Text :=
  if !key.isEmpty && key.all isKeyChar then key else '"' :: escapes false 0 0 key ++ ['"']

/-- A floating-point number, always with a fraction if it is finite. -/
def writeFloat : Number.Binary64 → Text
  | .undefined => "nan".toList
  | .infinite negative => (Number.Binary64.infinite negative).toText
  | x => let t := x.toText; if t.contains '.' then t else t ++ ".0".toList

def writeInteger (n : Int) : Text :=
  if n < 0 then '-' :: Text.ofNat n.natAbs else Text.ofNat n.natAbs

/-- An array of written items: two or more stand on lines of their own, each with a comma. -/
def writeArray : List Text → Text
  | [] => "[]".toList
  | [item] => '[' :: item ++ [']']
  | items => '[' :: items.flatMap (fun item => "\n    ".toList ++ item ++ [',']) ++ "\n]".toList

mutual
/-- A value on the right of an equals sign. -/
def Value.write : Value → Text
  | .string t => writeString t
  | .integer n => writeInteger n
  | .float x => writeFloat x
  | .boolean b => if b then "true".toList else "false".toList
  | .datetime d => d.toText
  | .array items => writeArray (writeItems items)
  | .table [] => "\x7b\x7d".toList
  | .table entries =>
    "\x7b ".toList ++ Text.join ", ".toList (writeEntries entries) ++ " \x7d".toList

def writeItems : List Value → List Text
  | [] => []
  | v :: vs => v.write :: writeItems vs

def writeEntries : List (Text × Value) → List Text
  | [] => []
  | (key, v) :: es => (writeKey key ++ " = ".toList ++ v.write) :: writeEntries es
end

/-- A part of a document: the pairs at its start, a table, or one of several tables of a key. -/
inductive Part where
  | top (pairs : Table)
  | table (key : Text) (pairs : Table)
  | item (key : Text) (pairs : Table)

/-- A key and its value on a line. -/
def writePair (pair : Text × Value) : Text :=
  writeKey pair.1 ++ " = ".toList ++ pair.2.write ++ ['\n']

def Part.write : Part → Text
  | top pairs => pairs.flatMap writePair
  | table key pairs => '[' :: writeKey key ++ "]\n".toList ++ pairs.flatMap writePair
  | item key pairs => "[[".toList ++ writeKey key ++ "]]\n".toList ++ pairs.flatMap writePair

/-- The parts with a blank line between neighbours. -/
def write (parts : List Part) : Text := Text.join ['\n'] (parts.map Part.write)

end ApiReference.Toml
