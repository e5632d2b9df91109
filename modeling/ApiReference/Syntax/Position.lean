import ApiReference.Text.Basic

/-!
# Positions in source text

A position counts line feeds before it, bytes since the last one and bytes in all. Reading a
character moves a position on; nothing else does.
-/

namespace ApiReference.Syntax

/-- A place in source text; everything is counted from zero. -/
structure Position where
  row : Nat
  /-- Bytes since the last line feed. -/
  column : Nat
  /-- Bytes since the beginning. -/
  offset : Nat
  deriving DecidableEq, Repr

namespace Position

def start : Position := ⟨0, 0, 0⟩

def next (p : Position) (c : Char) : Position :=
  if c = '\n' then ⟨p.row + 1, 0, p.offset + 1⟩
  else ⟨p.row, p.column + c.utf8Size, p.offset + c.utf8Size⟩

def after (p : Position) (t : Text) : Position := t.foldl next p

end Position

/-- The characters before a number of bytes. -/
def takeBytes : Nat → Text → Text
  | _, [] => []
  | n, c :: cs => if n < c.utf8Size then [] else c :: takeBytes (n - c.utf8Size) cs

/-- The characters from a number of bytes on. -/
def dropBytes : Nat → Text → Text
  | _, [] => []
  | n, c :: cs => if n < c.utf8Size then c :: cs else dropBytes (n - c.utf8Size) cs

end ApiReference.Syntax
