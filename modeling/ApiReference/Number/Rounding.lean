/-!
# Rounding

Rounding to the nearest number of a kind, with a stated rule for a tie.
-/

namespace ApiReference.Number

/-- A quotient to the nearest whole number; a half goes to the even neighbour. -/
def divideToEven (a b : Nat) : Nat :=
  let q := a / b
  let r := a % b
  if 2 * r < b then q
  else if b < 2 * r then q + 1
  else if q % 2 = 0 then q else q + 1

/-- A quotient to the nearest whole number; a half goes up. -/
def divideHalfUp (a b : Nat) : Nat := (2 * a + b) / (2 * b)

/-- The weight of the last of 53 significant bits of a number, at least one. -/
def lastPlace (n : Nat) : Nat := Nat.pow 2 (Nat.log2 n - 52)

/-- The nearest whole number of at most 53 significant bits; a tie goes to the even last bit. -/
def nearest53 (n : Nat) : Nat := divideToEven n (lastPlace n) * lastPlace n

end ApiReference.Number
