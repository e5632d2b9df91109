import ApiReference.Json.Basic

/-!
# Reading JSON

The grammar of JSON and nothing beyond it. A text that does not follow it is refused with the cause
and the place: lines and, within a line, bytes.
-/

namespace ApiReference.Json

/-- Why a text is no JSON value. -/
inductive Cause where
  | eofInValue
  | eofInString
  | eofInArray
  | eofInObject
  | expectedValue
  | expectedKeyword
  | expectedColon
  | expectedItemEnd
  | expectedFieldEnd
  | keyNotString
  | trailingComma
  | trailingCharacters
  | invalidNumber
  | invalidEscape
  | loneSurrogate
  | controlCharacter

def Cause.message : Cause → Text
  | eofInValue => "EOF while parsing a value".toList
  | eofInString => "EOF while parsing a string".toList
  | eofInArray => "EOF while parsing a list".toList
  | eofInObject => "EOF while parsing an object".toList
  | expectedValue => "expected value".toList
  | expectedKeyword => "expected ident".toList
  | expectedColon => "expected \x60:\x60".toList
  | expectedItemEnd => "expected \x60,\x60 or \x60]\x60".toList
  | expectedFieldEnd => "expected \x60,\x60 or \x60\x7d\x60".toList
  | keyNotString => "key must be a string".toList
  | trailingComma => "trailing comma".toList
  | trailingCharacters => "trailing characters".toList
  | invalidNumber => "invalid number".toList
  | invalidEscape => "invalid escape".toList
  | loneSurrogate => "lone leading surrogate in hex escape".toList
  | controlCharacter => "control character (\\u0000-\\u001F) found while parsing a string".toList

/-- A refusal: its cause and the text from the offending character on. -/
structure Refusal where
  cause : Cause
  rest : Text

/-- The position just after a beginning of a text: its line and its byte in the line. -/
def positionText (before : Text) : Text :=
  let line := (before.filter (· == '\n')).length + 1
  let column := Text.byteLength (before.reverse.takeWhile (· != '\n'))
  " at line ".toList ++ Text.ofNat line ++ " column ".toList ++ Text.ofNat column

/-- The wording of a refusal of a text; the offending character counts as read. -/
def Refusal.message (whole : Text) (r : Refusal) : Text :=
  r.cause.message ++ positionText (whole.take (whole.length - r.rest.length + 1))

abbrev Reading (α : Type) := Except Refusal (α × Text)

def skipBlanks (t : Text) : Text :=
  t.dropWhile fun c => c == ' ' || c == '\n' || c == '\t' || c == '\r'

def hexValue? (c : Char) : Option Nat :=
  if '0' ≤ c && c ≤ '9' then some (c.toNat - 48)
  else if 'a' ≤ c && c ≤ 'f' then some (c.toNat - 87)
  else if 'A' ≤ c && c ≤ 'F' then some (c.toNat - 55)
  else none

def readHex : Text → Reading Nat
  | a :: b :: c :: d :: rest =>
    match hexValue? a, hexValue? b, hexValue? c, hexValue? d with
    | some a, some b, some c, some d => .ok (((a * 16 + b) * 16 + c) * 16 + d, rest)
    | _, _, _, _ => .error ⟨.invalidEscape, d :: rest⟩
  | _ => .error ⟨.eofInString, []⟩

/-- The character of an escape after its backslash; surrogates come in pairs. -/
def readEscape : Text → Reading Char
  | [] => .error ⟨.eofInString, []⟩
  | '"' :: rest => .ok ('"', rest)
  | '\\' :: rest => .ok ('\\', rest)
  | '/' :: rest => .ok ('/', rest)
  | 'b' :: rest => .ok (Char.ofNat 8, rest)
  | 'f' :: rest => .ok (Char.ofNat 12, rest)
  | 'n' :: rest => .ok ('\n', rest)
  | 'r' :: rest => .ok ('\r', rest)
  | 't' :: rest => .ok ('\t', rest)
  | 'u' :: rest =>
    match readHex rest with
    | .error e => .error e
    | .ok (high, rest) =>
      if 0xDC00 ≤ high && high ≤ 0xDFFF then .error ⟨.loneSurrogate, rest⟩
      else if 0xD800 ≤ high && high ≤ 0xDBFF then
        match rest with
        | '\\' :: 'u' :: rest =>
          match readHex rest with
          | .error e => .error e
          | .ok (low, rest) =>
            if 0xDC00 ≤ low && low ≤ 0xDFFF then
              .ok (Char.ofNat (0x10000 + (high - 0xD800) * 0x400 + (low - 0xDC00)), rest)
            else .error ⟨.loneSurrogate, rest⟩
        | _ => .error ⟨.loneSurrogate, rest⟩
      else .ok (Char.ofNat high, rest)
  | rest => .error ⟨.invalidEscape, rest⟩

/-- A string after its opening quote. -/
def readString : Nat → Text → Except Refusal (Text × Text)
  | 0, rest => .error ⟨.eofInString, rest⟩
  | _ + 1, [] => .error ⟨.eofInString, []⟩
  | _ + 1, '"' :: rest => .ok ([], rest)
  | n + 1, '\\' :: rest => do
    let (c, rest) ← readEscape rest
    let (cs, rest) ← readString n rest
    return (c :: cs, rest)
  | n + 1, c :: rest =>
    if c.toNat < 0x20 then .error ⟨.controlCharacter, c :: rest⟩
    else do
      let (cs, rest) ← readString n rest
      return (c :: cs, rest)

def readDigits (t : Text) : Reading Text :=
  let digits := t.takeWhile Text.isAsciiDigit
  let rest := t.dropWhile Text.isAsciiDigit
  if digits.isEmpty then .error ⟨if rest.isEmpty then .eofInValue else .invalidNumber, rest⟩
  else .ok (digits, rest)

/-- The digits before a fraction: a zero stands alone. -/
def readWhole : Text → Reading Text
  | '0' :: c :: rest =>
    if Text.isAsciiDigit c then .error ⟨.invalidNumber, c :: rest⟩ else .ok (['0'], c :: rest)
  | t => readDigits t

def readFraction : Text → Reading Text
  | '.' :: rest => (readDigits rest).map fun (ds, rest) => ('.' :: ds, rest)
  | rest => .ok ([], rest)

def readExponent : Text → Reading Text
  | c :: rest =>
    if c == 'e' || c == 'E' then
      match rest with
      | '+' :: more => (readDigits more).map fun (ds, rest) => (c :: '+' :: ds, rest)
      | '-' :: more => (readDigits more).map fun (ds, rest) => (c :: '-' :: ds, rest)
      | _ => (readDigits rest).map fun (ds, rest) => (c :: ds, rest)
    else .ok ([], c :: rest)
  | [] => .ok ([], [])

def readNumber (t : Text) : Except Refusal (Text × Text) := do
  let (whole, rest) ← readWhole t
  let (fraction, rest) ← readFraction rest
  let (exponent, rest) ← readExponent rest
  return (whole ++ fraction ++ exponent, rest)

/-- The rest of a keyword after its first letter. -/
def readKeyword (letters : Text) (v : Value) (t : Text) : Reading Value :=
  match Text.stripStart letters t with
  | some rest => .ok (v, rest)
  | none => .error ⟨if t.length < letters.length then .eofInValue else .expectedKeyword, t⟩

mutual
/-- A value, after white space. The fuel bounds the length of the text. -/
def readValue : Nat → Text → Reading Value
  | 0, rest => .error ⟨.eofInValue, rest⟩
  | n + 1, t =>
    match skipBlanks t with
    | [] => .error ⟨.eofInValue, []⟩
    | 'n' :: rest => readKeyword "ull".toList .null rest
    | 't' :: rest => readKeyword "rue".toList (.bool true) rest
    | 'f' :: rest => readKeyword "alse".toList (.bool false) rest
    | '"' :: rest => (readString (rest.length + 1) rest).map fun (t, rest) => (.string t, rest)
    | '-' :: rest => (readNumber rest).map fun (l, rest) => (.number ('-' :: l), rest)
    | '[' :: rest =>
      match skipBlanks rest with
      | ']' :: rest => .ok (.array [], rest)
      | rest => (readItems n rest).map fun (vs, rest) => (.array vs, rest)
    | '{' :: rest =>
      match skipBlanks rest with
      | '}' :: rest => .ok (.object [], rest)
      | rest => (readFields n rest).map fun (fs, rest) => (.object fs, rest)
    | c :: rest =>
      if Text.isAsciiDigit c then (readNumber (c :: rest)).map fun (l, rest) => (.number l, rest)
      else .error ⟨.expectedValue, c :: rest⟩

/-- The items of an array up to its closing bracket. -/
def readItems : Nat → Text → Reading (List Value)
  | 0, rest => .error ⟨.eofInArray, rest⟩
  | n + 1, t =>
    match readValue n t with
    | .error e => .error e
    | .ok (v, rest) =>
      match skipBlanks rest with
      | [] => .error ⟨.eofInArray, []⟩
      | ']' :: rest => .ok ([v], rest)
      | ',' :: rest =>
        match skipBlanks rest with
        | ']' :: rest => .error ⟨.trailingComma, ']' :: rest⟩
        | rest => (readItems n rest).map fun (vs, rest) => (v :: vs, rest)
      | rest => .error ⟨.expectedItemEnd, rest⟩

/-- The fields of an object up to its closing brace. -/
def readFields : Nat → Text → Reading (List (Text × Value))
  | 0, rest => .error ⟨.eofInObject, rest⟩
  | n + 1, t =>
    match skipBlanks t with
    | [] => .error ⟨.eofInObject, []⟩
    | '"' :: rest =>
      match readString (rest.length + 1) rest with
      | .error e => .error e
      | .ok (key, rest) =>
        match skipBlanks rest with
        | [] => .error ⟨.eofInObject, []⟩
        | ':' :: rest =>
          match readValue n rest with
          | .error e => .error e
          | .ok (v, rest) =>
            match skipBlanks rest with
            | [] => .error ⟨.eofInObject, []⟩
            | '}' :: rest => .ok ([(key, v)], rest)
            | ',' :: rest =>
              match skipBlanks rest with
              | '}' :: rest => .error ⟨.trailingComma, '}' :: rest⟩
              | rest => (readFields n rest).map fun (fs, rest) => ((key, v) :: fs, rest)
            | rest => .error ⟨.expectedFieldEnd, rest⟩
        | rest => .error ⟨.expectedColon, rest⟩
    | rest => .error ⟨.keyNotString, rest⟩
end

def read (t : Text) : Except Refusal Value :=
  match readValue (t.length + 1) t with
  | .error e => .error e
  | .ok (v, rest) =>
    match skipBlanks rest with
    | [] => .ok v
    | rest => .error ⟨.trailingCharacters, rest⟩

/-- The value a text stands for, or the wording of the refusal. -/
def readOrMessage (t : Text) : Except Text Value :=
  match read t with
  | .ok v => .ok v
  | .error e => .error (e.message t)

end ApiReference.Json
