import ApiReference.Number.Rounding
import ApiReference.Text.Basic

/-!
# Pages

A page is text written front to back that knows how much of its budget it has used. Lists on it
become shorter once a share of the budget is used up, and say how much they left out; what goes
beyond the whole budget is cut off.
-/

namespace ApiReference.Rendering

/-- A share of a budget, in units of the last of 53 binary places. -/
structure Share where
  parts : Nat
  deriving DecidableEq, Repr

/-- Three fifths. -/
def Share.threeFifths : Share := ⟨5404319552844595⟩

/-- Seven tenths. -/
def Share.sevenTenths : Share := ⟨6305039478318694⟩

/-- A text in the making. -/
structure Page where
  text : Text
  /-- The number of characters of the text. -/
  chars : Nat
  /-- The number of characters the finished text may have. -/
  budget : Nat
  deriving DecidableEq, Repr

/-- What stands in place of a cut-off end. -/
def cutMarker : Text := "\n\n[output truncated]".toList

namespace Page

def empty (budget : Nat) : Page := ⟨[], 0, budget⟩

def push (p : Page) (t : Text) : Page := { p with text := p.text ++ t, chars := p.chars + t.length }

def line (p : Page) (t : Text) : Page := (p.push t).push ['\n']

def gap (p : Page) : Page := p.push ['\n']

/-- Whether more than a share of the budget is used, in arithmetic of 53 significant bits. -/
def past (p : Page) (share : Share) : Bool :=
  Number.nearest53 (Number.nearest53 p.budget * share.parts) <
    Number.nearest53 p.chars * Nat.pow 2 53

def fence : Text := List.replicate 3 '\x60'

/-- Writes code between fences, without white space at its end. -/
def codeBlock (p : Page) (language code : Text) : Page :=
  ((p.line (fence ++ language)).line (Text.trimEnd code)).line fence

/-- Says how many items were left out, if any were. -/
def omitted (p : Page) (count : Nat) (what : String) : Page :=
  if count = 0 then p
  else p.line ('_' :: Text.ofNat count ++ " more ".toList ++ what.toList ++ " omitted_".toList)

/-- Writes items in order and counts them, starting at a count. Once so many are written, it stops
at the first item before which the share is used up. -/
def items {α : Type} (share : Share) (atLeast : Nat) (write : Page → α → Page) :
    Nat → Page → List α → Page × Nat
  | shown, p, [] => (p, shown)
  | shown, p, a :: as =>
    if atLeast ≤ shown && p.past share then (p, shown)
    else items share atLeast write (shown + 1) (write p a) as

/-- Writes one line per item. -/
def lines (p : Page) (ts : List Text) : Page := ts.foldl line p

/-- The text, cut to the budget; a marker stands at the cut if there is room for it. -/
def finish (p : Page) : Text :=
  if p.chars ≤ p.budget then p.text
  else
    p.text.take (p.budget - cutMarker.length) ++
      if cutMarker.length ≤ p.budget then cutMarker else []

end Page

/-- A text of at most so many characters and, if it was cut, three dots. -/
def truncate (limit : Nat) (t : Text) : Text :=
  if t.length ≤ limit then t else t.take limit ++ "...".toList

end ApiReference.Rendering
