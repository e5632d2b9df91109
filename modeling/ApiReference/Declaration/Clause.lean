import ApiReference.Text.Basic

/-!
# Lists of types

The parts of a clause such as `A<B, C>, D` between the commas that stand in no brackets.
-/

namespace ApiReference.Declaration

/-- Where a scan of a clause is: how many brackets are open (fewer than none if more were closed),
the part so far with its last character first, and the character before. The number has no bound; one
of 32 bits is the same up to two thousand million open brackets. -/
structure ClauseScan where
  depth : Int
  part : Text
  previous : Option Char

/-- A finished part, if it is not blank. -/
def finishPart (part : Text) : List Text :=
  let part := Text.trim part.reverse
  if part.isEmpty then [] else [part]

/-- How a character changes the number of open brackets; the head of an arrow closes nothing. -/
def bracketChange (previous : Option Char) (c : Char) : Int :=
  if c = '<' || c = '(' || c = '[' || c = '{' then 1
  else if c = '>' then if previous = some '=' then 0 else -1
  else if c = ')' || c = ']' || c = '}' then -1
  else 0

/-- The parts from a place in a clause on. -/
def splitFrom : ClauseScan → Text → List Text
  | s, [] => finishPart s.part
  | s, c :: rest =>
    if c = ',' && s.depth ≤ 0 then finishPart s.part ++ splitFrom ⟨s.depth, [], some c⟩ rest
    else splitFrom ⟨s.depth + bracketChange s.previous c, c :: s.part, some c⟩ rest

/-- The parts of a clause between top-level commas, trimmed; blank ones are left out. -/
def splitTopLevel (t : Text) : List Text := splitFrom ⟨0, [], none⟩ t

end ApiReference.Declaration
