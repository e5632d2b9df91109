import ApiReference.Number.Literal
import ApiReference.Number.Rounding

/-!
# Binary floating point

Numbers of 53 significant bits, read from decimal notation to the nearest one and written with the
fewest decimal digits that read back. All arithmetic is exact.
-/

namespace ApiReference.Number

/-- A floating-point number; a finite one is its significand times a power of two. -/
inductive Binary64 where
  | finite (negative : Bool) (significand : Nat) (exponent : Int)
  | infinite (negative : Bool)
  | undefined
  deriving DecidableEq, Repr

namespace Binary64

/-- The least exponent of a finite number. -/
def leastExponent : Int := -1074

/-- The quotient of two numbers after scaling by a power of two, as numerator and denominator. -/
def scaled (a b : Nat) (exponent : Int) : Nat × Nat :=
  if exponent < 0 then (a * Nat.pow 2 exponent.natAbs, b) else (a, b * Nat.pow 2 exponent.natAbs)

/-- The exponent at which a positive quotient has 53 bits before the point, or the least one. -/
def exponentOf (a b : Nat) : Int :=
  let low : Int := (Nat.log2 a : Int) - Nat.log2 b - 53
  let (p, q) := scaled a b low
  max leastExponent (if p < Nat.pow 2 53 * q then low else low + 1)

/-- The number nearest to a quotient; what is too large is infinite. -/
def ofQuotient (negative : Bool) (a b : Nat) : Binary64 :=
  if a = 0 then .finite negative 0 0
  else
    let e := exponentOf a b
    let (p, q) := scaled a b e
    let m := divideToEven p q
    let (m, e) := if m = Nat.pow 2 53 then (Nat.pow 2 52, e + 1) else (m, e)
    if 971 < e then .infinite negative else .finite negative m e

/-- The number nearest to a whole number times a power of ten. -/
def ofDecimal (negative : Bool) (digits : Nat) (exponent : Int) : Binary64 :=
  let magnitude := exponent + (Text.ofNat digits).length
  if digits = 0 || magnitude < -330 then .finite negative 0 0
  else if 310 < magnitude then .infinite negative
  else if exponent < 0 then ofQuotient negative digits (Nat.pow 10 exponent.natAbs)
  else ofQuotient negative (digits * Nat.pow 10 exponent.natAbs) 1

/-- A whole exponent: an optional sign and at least one digit. -/
def exponent? (t : Text) : Option Int :=
  let (negative, digits) := splitSign t
  if digits.isEmpty || !digits.all Text.isAsciiDigit then none
  else
    let n := Text.toNat digits
    some (if negative then -(n : Int) else n)

/-- A number in decimal notation without its sign: digits, at most one point, and an exponent. -/
def unsigned? (negative : Bool) (t : Text) : Option Binary64 :=
  let (mantissa, exponent) := (Text.splitOnce (fun c => c == 'e' || c == 'E') t).getD (t, ['0'])
  let (whole, fraction) := (Text.splitOnce (· == '.') mantissa).getD (mantissa, [])
  let digits := whole ++ fraction
  if digits.isEmpty || !digits.all Text.isAsciiDigit then none
  else (exponent? exponent).map fun e =>
    ofDecimal negative (Text.toNat digits) (e - fraction.length)

/-- The number nearest to one in decimal notation; infinity and the undefined number have names. -/
def read? (t : Text) : Option Binary64 :=
  let (negative, t) := splitSign t
  let word := Text.asciiLower t
  if word == "inf".toList || word == "infinity".toList then some (.infinite negative)
  else if word == "nan".toList then some .undefined
  else unsigned? negative t

/-- The interval of quotients that round to a significand and exponent, as the numerators of its
ends and of the number itself over one denominator, and whether the ends belong to it. -/
structure Neighbourhood where
  low : Nat
  value : Nat
  high : Nat
  denominator : Nat
  closed : Bool

/-- The neighbourhood of a positive number; below a power of two the numbers lie twice as close. -/
def neighbourhood (m : Nat) (e : Int) : Neighbourhood :=
  let below := if m = Nat.pow 2 52 && leastExponent < e then 1 else 2
  let up := if e < 0 then 1 else Nat.pow 2 e.natAbs
  ⟨(4 * m - below) * up, 4 * m * up, (4 * m + 2) * up,
    4 * (if e < 0 then Nat.pow 2 e.natAbs else 1), m % 2 = 0⟩

/-- Whether a quotient lies in a neighbourhood. -/
def Neighbourhood.contains (n : Neighbourhood) (p q : Nat) : Bool :=
  let p := p * n.denominator
  if n.closed then n.low * q ≤ p && p ≤ n.high * q else n.low * q < p && p < n.high * q

/-- The multiple of a power of ten in a neighbourhood that is nearest to its number, if the number's
neighbours on that grid have one in it. -/
def Neighbourhood.onGrid? (n : Neighbourhood) (power : Int) : Option Nat :=
  let step := Nat.pow 10 power.natAbs
  let (unit, q) : Nat × Nat := if power < 0 then (1, step) else (step, 1)
  let floor := n.value * q / (unit * n.denominator)
  let down := 0 < floor && n.contains (floor * unit) q
  let up := n.contains ((floor + 1) * unit) q
  let nearer :=
    if 2 * (n.value * q) < (2 * floor + 1) * unit * n.denominator then floor else floor + 1
  if down && up then some nearer
  else if down then some floor
  else if up then some (floor + 1)
  else none

/-- The coarsest of the given grids that has a point in a neighbourhood, with that point. -/
def Neighbourhood.coarsest (n : Neighbourhood) : List Int → Nat × Int
  | [] => (0, 0)
  | power :: powers =>
    match n.onGrid? power with
    | some digits => (digits, power)
    | none => n.coarsest powers

/-- The fewest decimal digits that read back, as a whole number and a power of ten. -/
def shortest (m : Nat) (e : Int) : Nat × Int :=
  let n := neighbourhood m e
  let top : Int := (Text.ofNat (n.value / n.denominator)).length
  let low : Int := (Text.ofNat (n.denominator / n.value)).length
  let start := if n.value < n.denominator then 1 - low else top
  n.coarsest ((List.range 40).map fun i : Nat => start - i)

/-- Positional notation, without a point where no digit follows it. -/
def positional (digits : Nat) (power : Int) : Text :=
  let ds := Text.ofNat digits
  if 0 ≤ power then ds ++ List.replicate power.natAbs '0'
  else
    let places := power.natAbs
    let padded := List.replicate (places + 1 - ds.length) '0' ++ ds
    padded.take (padded.length - places) ++ '.' :: padded.drop (padded.length - places)

/-- The shortest decimal text that reads back, always in positional notation. -/
def toText : Binary64 → Text
  | finite negative m e =>
    let (digits, power) := if m = 0 then (0, 0) else shortest m e
    (if negative then ['-'] else []) ++ positional digits power
  | infinite negative => if negative then "-inf".toList else "inf".toList
  | undefined => "NaN".toList

/-- The nearest whole number that a number of bits can hold; a half goes away from zero, and the
undefined number goes to zero. -/
def toBounded (bits : Nat) : Binary64 → Nat
  | finite negative m e =>
    if negative then 0
    else if 0 ≤ e then min (m * Nat.pow 2 e.natAbs) (Nat.pow 2 bits - 1)
    else min (divideHalfUp m (Nat.pow 2 e.natAbs)) (Nat.pow 2 bits - 1)
  | infinite negative => if negative then 0 else Nat.pow 2 bits - 1
  | undefined => 0

end Binary64
end ApiReference.Number
