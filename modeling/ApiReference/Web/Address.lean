import ApiReference.Json.Printer
import ApiReference.Text.Basic

/-!
# Addresses

The normal form of an address: no dot segments in its path, and an escape for every character that
an address cannot hold.
-/

namespace ApiReference.Web

def utf8Bytes (c : Char) : List Nat :=
  let n := c.toNat
  if n < 0x80 then [n]
  else if n < 0x800 then [0xC0 + n / 64, 0x80 + n % 64]
  else if n < 0x10000 then [0xE0 + n / 4096, 0x80 + n / 64 % 64, 0x80 + n % 64]
  else [0xF0 + n / 262144, 0x80 + n / 4096 % 64, 0x80 + n / 64 % 64, 0x80 + n % 64]

def percent (byte : Nat) : Text :=
  ['%', (Json.hexDigit (byte / 16)).toUpper, (Json.hexDigit (byte % 16)).toUpper]

/-- Whether every part of an address must escape a character: control characters, the space, what is
not ASCII, and some marks. -/
def mustEscape (c : Char) : Bool :=
  c.toNat ≤ 32 || 127 ≤ c.toNat || c == '"' || c == '<' || c == '>'

def escaped (marks : Char → Bool) (t : Text) : Text :=
  t.flatMap fun c => if mustEscape c || marks c then (utf8Bytes c).flatMap percent else [c]

def isPathMark (c : Char) : Bool :=
  c.toNat == 0x60 || c.toNat == 0x7B || c.toNat == 0x7D || c == '#' || c == '?'

def isQueryMark (c : Char) : Bool := c == '#' || c.toNat == 39

def isFragmentMark (c : Char) : Bool := c.toNat == 0x60

/-- The number of dots that a segment of a path consists of, escaped or not. -/
def dots? (segment : Text) : Option Nat :=
  let plain := Text.asciiLower segment
  if plain == ".".toList || plain == "%2e".toList then some 1
  else if plain == "..".toList || plain == "%2e.".toList || plain == ".%2e".toList ||
      plain == "%2e%2e".toList then some 2
  else none

/-- The segments of a path, last one first, without dot segments: two dots remove the segment before
them. Dots at the end leave an empty segment. -/
def plainSegments : List Text → List Text → List Text
  | done, [] => done
  | done, segment :: segments =>
    match dots? segment with
    | none => plainSegments (segment :: done) segments
    | some count =>
      let done := if count = 2 then done.tail else done
      plainSegments (if segments.isEmpty then [] :: done else done) segments

/-- The normal form of a path that begins with a slash. -/
def normalPath (path : Text) : Text :=
  let segments := Text.splitOn (fun c => c == '/' || c == '\\') (path.drop 1)
  (plainSegments [] segments).reverse.flatMap fun segment => '/' :: escaped isPathMark segment

/-- An address as its part up to the host, its path, its query and its fragment. -/
structure Address where
  host : Text
  path : Text
  query : Option Text
  fragment : Option Text
  deriving DecidableEq, Repr

/-- The parts of an address that can be asked by HTTP. -/
def Address.ofText? (t : Text) : Option Address := do
  let t := t.filter fun c => !(c == '\t' || c == '\n' || c == '\r')
  let scheme ← ["http://".toList, "https://".toList].find? fun s => Text.startsWith s t
  let rest := t.drop scheme.length
  let (rest, fragment) :=
    match Text.splitOnce (· == '#') rest with
    | some (rest, f) => (rest, some f)
    | none => (rest, none)
  let (rest, query) :=
    match Text.splitOnce (· == '?') rest with
    | some (rest, q) => (rest, some q)
    | none => (rest, none)
  let isSlash := fun c => c == '/' || c == '\\'
  let host := rest.takeWhile fun c => !isSlash c
  if host.isEmpty then none
  else return ⟨scheme ++ Text.asciiLower host, rest.dropWhile fun c => !isSlash c, query, fragment⟩

/-- An address in its normal form. -/
def Address.toText (a : Address) : Text :=
  a.host ++ (if a.path.isEmpty then ['/'] else normalPath a.path) ++
    (match a.query with
      | some q => '?' :: escaped isQueryMark q
      | none => []) ++
    (match a.fragment with
      | some f => '#' :: escaped isFragmentMark f
      | none => [])

end ApiReference.Web
