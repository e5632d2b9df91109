/-!
# Sets of characters as ranges

A property of the Unicode character database is a list of inclusive ranges of code points.
-/

namespace ApiReference.Text

/-- Whether a character's code point lies in one of the ranges. -/
def inRanges (ranges : List (Nat × Nat)) (c : Char) : Bool :=
  ranges.any fun (first, last) => first ≤ c.toNat && c.toNat ≤ last

end ApiReference.Text
