/-!
# Text

Text is a list of Unicode scalar values. Every limit of this library counts scalar values
unless a definition says bytes, and every function below recurses on the list it is given.
-/

namespace ApiReference

/-- Text as its sequence of Unicode scalar values. -/
abbrev Text := List Char

namespace Text

/-- Unicode `White_Space`: the only notion of white space in this library. -/
def isBlank (c : Char) : Bool :=
  let n := c.toNat
  (9 ≤ n && n ≤ 13) || n == 32 || n == 0x85 || n == 0xA0 || n == 0x1680 ||
    (0x2000 ≤ n && n ≤ 0x200A) || n == 0x2028 || n == 0x2029 || n == 0x202F ||
    n == 0x205F || n == 0x3000

def isAsciiDigit (c : Char) : Bool := '0' ≤ c && c ≤ '9'

/-- The number of bytes of the UTF-8 form. -/
def byteLength : Text → Nat
  | [] => 0
  | c :: cs => c.utf8Size + byteLength cs

def trimStartOf (p : Char → Bool) (t : Text) : Text := t.dropWhile p

def trimEndOf (p : Char → Bool) (t : Text) : Text := (t.reverse.dropWhile p).reverse

def trimOf (p : Char → Bool) (t : Text) : Text := trimEndOf p (trimStartOf p t)

def trimStart (t : Text) : Text := trimStartOf isBlank t

def trimEnd (t : Text) : Text := trimEndOf isBlank t

def trim (t : Text) : Text := trimOf isBlank t

/-- The text after a given beginning, if it begins so. -/
def stripStart : Text → Text → Option Text
  | [], t => some t
  | _ :: _, [] => none
  | b :: bs, c :: cs => if b = c then stripStart bs cs else none

/-- The text before a given ending, if it ends so. -/
def stripEnd (ending t : Text) : Option Text :=
  (stripStart ending.reverse t.reverse).map List.reverse

def startsWith (beginning t : Text) : Bool := (stripStart beginning t).isSome

def endsWith (ending t : Text) : Bool := (stripEnd ending t).isSome

/-- Whether a text occurs, contiguously, in another. -/
def occursIn (part : Text) : Text → Bool
  | [] => part.isEmpty
  | c :: cs => startsWith part (c :: cs) || occursIn part cs

/-- Repeatedly removes a non-empty beginning, at most as often as it can occur. -/
def stripStartAll (beginning t : Text) : Text :=
  go t.length t
where
  go : Nat → Text → Text
    | 0, t => t
    | n + 1, t =>
      if beginning.isEmpty then t
      else match stripStart beginning t with
        | some rest => go n rest
        | none => t

/-- Repeatedly removes a non-empty ending. -/
def stripEndAll (ending t : Text) : Text :=
  (stripStartAll ending.reverse t.reverse).reverse

/-- The pieces between the characters of a class; there is always one more piece than separators. -/
def splitOn (p : Char → Bool) : Text → List Text
  | [] => [[]]
  | c :: cs =>
    if p c then [] :: splitOn p cs
    else match splitOn p cs with
      | [] => [[c]]
      | piece :: more => (c :: piece) :: more

/-- The text before the first character of a class and the text after it. -/
def splitOnce (p : Char → Bool) : Text → Option (Text × Text)
  | [] => none
  | c :: cs => if p c then some ([], cs) else (splitOnce p cs).map fun (a, b) => (c :: a, b)

/-- The text before the last character of a class and the text after it. -/
def splitLast (p : Char → Bool) (t : Text) : Option (Text × Text) :=
  (splitOnce p t.reverse).map fun (a, b) => (b.reverse, a.reverse)

/-- The maximal runs of non-blank characters. -/
def words (t : Text) : List Text := (splitOn isBlank t).filter fun w => !w.isEmpty

/-- The text before each line feed, one trailing carriage return of it removed, and what follows the
last line feed, unless that is nothing. -/
def lines (t : Text) : List Text :=
  let pieces := splitOn (· == '\n') t
  pieces.dropLast.map (fun line => (stripEnd ['\r'] line).getD line) ++
    (pieces.getLast?.toList.filter fun line => !line.isEmpty)

/-- The pieces with a separator between neighbours. -/
def join (sep : Text) : List Text → Text
  | [] => []
  | [t] => t
  | t :: ts => t ++ sep ++ join sep ts

/-- One space in place of every run of blanks, none at the ends. -/
def collapse (t : Text) : Text := join [' '] (words t)

def ofNat (n : Nat) : Text := Nat.toDigits 10 n

/-- The number a run of decimal digits stands for; other characters count as the digit zero. -/
def toNat (t : Text) : Nat :=
  t.foldl (fun n c => n * 10 + (if isAsciiDigit c then c.toNat - 48 else 0)) 0

def without (p : Char → Bool) (t : Text) : Text := t.filter fun c => !p c

/-- ASCII letters in lower case, all else unchanged. -/
def asciiLower (t : Text) : Text := t.map Char.toLower

end Text
end ApiReference
