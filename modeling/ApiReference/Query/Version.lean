import ApiReference.Text.Pattern

/-!
# Versions in free text

A version is only read where the text marks it as one: after the letter v, after the word
"version", or, with at least one dot, after an at sign. A bare number is never a version.
-/

namespace ApiReference.Query.Version
open ApiReference.Text (Pattern isDecimal isAsciiDigit isBlank)

def isAsciiAlphanumeric (c : Char) : Bool := c.isAlphanum

def digits : Pattern := .some (.one isDecimal)

def dotDigits : Pattern := .seq (.one (· == '.')) digits

/-- A hyphen, a letter or digit, and more letters, digits and dots. -/
def prerelease : Pattern :=
  .all [.one (· == '-'), .one isAsciiAlphanumeric,
    .many (.one fun c => isAsciiAlphanumeric c || c == '.')]

/-- A letter in either case. The long s counts as an s. -/
def caselessLetter (lower : Char) : Pattern :=
  .one fun c => c.toLower == lower || (lower == 's' && c.toNat == 0x17F)

/-- `v19`, `V15.0.0-RC.1`. -/
def afterLetter : Pattern :=
  .all [.boundary, .one fun c => c == 'v' || c == 'V',
    .marked (.all [digits, .opt dotDigits, .opt dotDigits, .opt prerelease]), .boundary]

/-- `version 18.2`. -/
def afterWord : Pattern :=
  .all [.boundary, ("version".toList).foldr (fun c rest => .seq (caselessLetter c) rest) .empty,
    .some (.one isBlank), .marked (.all [digits, .opt dotDigits, .opt dotDigits]), .boundary]

/-- `react@18.2.0`. -/
def afterAt : Pattern :=
  .all [.one (· == '@'),
    .marked (.all [digits, dotDigits, .opt dotDigits, .opt prerelease]), .boundary]

/-- The version that the first applicable kind of marker introduces, without trailing dots. -/
def extract? (query : Text) : Option Text :=
  [afterLetter, afterWord, afterAt].findSome? fun marker =>
    ((marker.find query).bind (·.mark)).map (Text.trimEndOf (· == '.'))

/-- A token that is nothing but a version, with or without a leading v. -/
def token : Pattern :=
  .all [.opt (.one (· == 'v')), digits, .many dotDigits,
    .opt (.all [.one (· == '-'), .one fun c => isAsciiDigit c || c.isLower,
      .many (.one fun c => isAsciiDigit c || c.isLower || c == '.')])]

end ApiReference.Query.Version
