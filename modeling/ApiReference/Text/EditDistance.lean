import ApiReference.Text.Basic

/-!
# Edit distance

The least number of insertions, deletions and replacements of one character that turn one text
into another, computed row by row.
-/

namespace ApiReference.Text

/-- The next row of the distance table: `diagonal` is the value above and to the left, `left` the
value just computed, and the list holds the rest of the row above. -/
def nextRow (c : Char) : Text → Nat → Nat → List Nat → List Nat
  | d :: ds, diagonal, left, above :: row =>
    let here := min (min (left + 1) (above + 1)) (diagonal + if c = d then 0 else 1)
    here :: nextRow c ds above here row
  | _, _, _, _ => []

/-- The rows for each character of a text in turn, from the row for the text before them. -/
def lastRow (b : Text) : Text → List Nat → List Nat
  | [], row => row
  | c :: cs, row =>
    match row with
    | [] => []
    | corner :: above => lastRow b cs ((corner + 1) :: nextRow c b corner (corner + 1) above)

def editDistance (a b : Text) : Nat :=
  ((lastRow b a (List.range (b.length + 1))).getLast?).getD 0

end ApiReference.Text
