import ApiReference.Text.Basic

/-!
# Whole numbers in decimal notation

Numbers of a bounded number of bits; what does not fit is not read.
-/

namespace ApiReference.Number

/-- An optional sign and the rest; only a minus counts as negative. -/
def splitSign : Text → Bool × Text
  | '-' :: rest => (true, rest)
  | '+' :: rest => (false, rest)
  | rest => (false, rest)

/-- A number without a minus sign. -/
def natural? (bits : Nat) (t : Text) : Option Nat :=
  let ds := (Text.stripStart ['+'] t).getD t
  let n := Text.toNat ds
  if ds.isEmpty || !ds.all Text.isAsciiDigit || Nat.pow 2 bits ≤ n then none else some n

/-- An integer that fits so many bits, of which one is for the sign. -/
def bounded? (bits : Nat) (n : Int) : Option Int :=
  if -(Nat.pow 2 (bits - 1) : Int) ≤ n && n < Nat.pow 2 (bits - 1) then some n else none

/-- A number with an optional sign. -/
def integer? (bits : Nat) (t : Text) : Option Int :=
  let (negative, ds) := splitSign t
  if ds.isEmpty || !ds.all Text.isAsciiDigit then none
  else bounded? bits (if negative then -(Text.toNat ds : Int) else Text.toNat ds)

end ApiReference.Number
