import ApiReference.Text.Basic
import ApiReference.Text.WordClass

/-!
# Patterns

Patterns over characters with one marked part. A pattern has a list of ways to match at a place,
in order of preference: earlier alternatives first, longer repetitions first. A search takes the
leftmost place that has a match, and there the preferred one.
-/

namespace ApiReference.Text

/-- What may stand at a place in a text. -/
inductive Pattern where
  /-- One character of a class. -/
  | one (p : Char → Bool)
  /-- A place with a word character on exactly one side. -/
  | boundary
  /-- Nothing at all. -/
  | empty
  | seq (first second : Pattern)
  | alt (preferred other : Pattern)
  /-- As many repetitions as possible, each of at least one character. -/
  | many (part : Pattern)
  /-- The part whose text a search reports. -/
  | marked (part : Pattern)

/-- A way to match: the characters taken (the last one first), the marked text if its end has been
passed, the character before the place reached and the text after it. -/
structure Hit where
  taken : Text
  mark : Option Text
  before : Option Char
  rest : Text

namespace Hit

/-- The empty match at a place. -/
def start (before : Option Char) (rest : Text) : Hit := ⟨[], none, before, rest⟩

def text (h : Hit) : Text := h.taken.reverse

end Hit

/-- Whether a word begins or ends between a character and the text after it. -/
def isBoundary (before : Option Char) (rest : Text) : Bool :=
  before.any isWordChar != rest.head?.any isWordChar

/-- The ways to repeat a step, longest first; a repetition that takes nothing is left out. -/
def repeatGreedy (step : Hit → List Hit) : Nat → Hit → List Hit
  | 0, h => [h]
  | n + 1, h =>
    ((step h).filter fun next => next.rest.length < h.rest.length).flatMap (repeatGreedy step n)
      ++ [h]

namespace Pattern

/-- The ways to go on from a match so far, in order of preference. -/
def ends : Pattern → Hit → List Hit
  | one p, h =>
    match h.rest with
    | c :: rest =>
      if p c then [{ h with taken := c :: h.taken, before := some c, rest := rest }] else []
    | [] => []
  | boundary, h => if isBoundary h.before h.rest then [h] else []
  | empty, h => [h]
  | seq a b, h => (ends a h).flatMap (ends b)
  | alt a b, h => ends a h ++ ends b h
  | many a, h => repeatGreedy (ends a) h.rest.length h
  | marked a, h =>
    (ends a { h with taken := [] }).map fun inner =>
      { inner with taken := inner.taken ++ h.taken, mark := some inner.text }

def opt (a : Pattern) : Pattern := alt a empty

def some (a : Pattern) : Pattern := seq a (many a)

def literal (t : Text) : Pattern := t.foldr (fun c rest => seq (one (· == c)) rest) empty

def all (ps : List Pattern) : Pattern := ps.foldr seq empty

/-- The preferred match at the start of a text. -/
def atStart (p : Pattern) (t : Text) : Option Hit := (ends p (.start none t)).head?

/-- Whether the whole text matches. -/
def accepts (p : Pattern) (t : Text) : Bool :=
  (ends p (.start none t)).any fun h => h.rest.isEmpty

/-- The preferred match at the leftmost place that has one, after a given left context. -/
def findAfter (p : Pattern) : Option Char → Text → Option Hit
  | before, [] => (ends p (.start before [])).head?
  | before, c :: rest =>
    match (ends p (.start before (c :: rest))).head? with
    | .some h => .some h
    | none => findAfter p (.some c) rest

/-- The leftmost match in a text. -/
def find (p : Pattern) (t : Text) : Option Hit := findAfter p none t

/-- The texts of successive matches, each sought after the end of the one before. -/
def findAll (p : Pattern) (t : Text) : List Text := go (t.length + 1) none t
where
  go : Nat → Option Char → Text → List Text
    | 0, _, _ => []
    | n + 1, before, t =>
      match findAfter p before t with
      | .some h => h.text :: go n h.before h.rest
      | none => []

end Pattern
end ApiReference.Text
