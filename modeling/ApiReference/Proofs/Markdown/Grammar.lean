import ApiReference.Package.Example
import ApiReference.Proofs.Text.Parts

/-!
# Documents in Markdown

Headings, prose and fenced blocks by the grammar of CommonMark, and the lines they are written on.
Within a line that grammar knows no white space but spaces and tabs. Each kind of line is read as
what it is if it is plain, and otherwise not.
-/

namespace ApiReference.Markdown
open ApiReference.Package

def isGap (c : Char) : Bool := c == ' ' || c == '\t'

def backtick : Char := Char.ofNat 0x60

def spaces (n : Nat) : Text := List.replicate n ' '

/-- A text that goes on for one line only. -/
def IsLine (t : Text) : Prop := '\n' ∉ t ∧ '\r' ∉ t

/-- What is left of a line without the three spaces it may be indented by. -/
def unindented (line : Text) : Text := line.drop (min (line.takeWhile (· == ' ')).length 3)

/-- How often a character is repeated at the start of a text. -/
def run (c : Char) (t : Text) : Nat := (t.takeWhile (· == c)).length

/-- One to six number signs with a gap or nothing after them. -/
def isHeading (line : Text) : Bool :=
  let t := unindented line
  1 ≤ run '#' t && run '#' t ≤ 6 && (t.drop (run '#' t)).head?.all isGap

/-- Three or more tildes, or as many backticks with no other backtick on their line: a line with one
more is code within prose. -/
def opensFence (line : Text) : Bool :=
  let t := unindented line
  3 ≤ run '~' t || (3 ≤ run backtick t && (t.drop (run backtick t)).all (· != backtick))

/-- At least as many marks as the block was opened with, and nothing after them. -/
def closesFence (mark : Char) (count : Nat) (line : Text) : Bool :=
  let t := unindented line
  count ≤ run mark t && (t.drop (run mark t)).all isGap

/-- A heading. The number signs that may close it are apart from its title. -/
structure Heading where
  indent : Nat
  level : Nat
  gap : Text
  title : Text
  closingGap : Text
  closingSigns : Nat
  endGap : Text
  indent_le : indent ≤ 3
  level_pos : 1 ≤ level
  level_le : level ≤ 6
  gap_isGap : ∀ c ∈ gap, isGap c = true
  closingGap_isGap : ∀ c ∈ closingGap, isGap c = true
  endGap_isGap : ∀ c ∈ endGap, isGap c = true
  title_isLine : IsLine title
  title_apart : title ≠ [] → gap ≠ []
  title_starts : ∀ c ∈ title.head?, isGap c = false
  title_ends : ∀ c ∈ title.getLast?, isGap c = false ∧ c ≠ '#'
  closing_apart : 0 < closingSigns → closingGap ≠ []

/-- What stands after the title of a heading. -/
def Heading.closing (h : Heading) : Text :=
  h.closingGap ++ (List.replicate h.closingSigns '#' ++ h.endGap)

def Heading.line (h : Heading) : Text :=
  spaces h.indent ++ (List.replicate h.level '#' ++ (h.gap ++ (h.title ++ h.closing)))

/-- A block of code between two fences, none of its lines being a closing fence for it. -/
structure Fenced where
  indent : Nat
  mark : Char
  count : Nat
  gap : Text
  info : Text
  endGap : Text
  body : List Text
  closingIndent : Nat
  closingCount : Nat
  closingGap : Text
  indent_le : indent ≤ 3
  mark_eq : mark = backtick ∨ mark = '~'
  three_le_count : 3 ≤ count
  gap_isGap : ∀ c ∈ gap, isGap c = true
  info_isLanguage : ∀ c ∈ info, isLanguageChar c = true
  endGap_isGap : ∀ c ∈ endGap, isGap c = true
  body_isLine : ∀ line ∈ body, IsLine line
  body_open : ∀ line ∈ body, closesFence mark count line = false
  closingIndent_le : closingIndent ≤ 3
  count_le_closing : count ≤ closingCount
  closingGap_isGap : ∀ c ∈ closingGap, isGap c = true

namespace Fenced
variable (b : Fenced)

def marks : Text := List.replicate b.count b.mark

def opening : Text := spaces b.indent ++ (b.marks ++ (b.gap ++ (b.info ++ b.endGap)))

def closing : Text :=
  spaces b.closingIndent ++ (List.replicate b.closingCount b.mark ++ b.closingGap)

def lines : List Text := b.opening :: (b.body ++ [b.closing])

def language : Text := if b.info = [] then "text".toList else Text.lower b.info

end Fenced

/-- What a document is a sequence of. -/
inductive Element where
  | heading (h : Heading)
  | prose (line : Text) (isLine : IsLine line) (noHeading : isHeading line = false)
    (noFence : opensFence line = false)
  | fenced (b : Fenced)

def Element.lines : Element → List Text
  | .heading h => [h.line]
  | .prose line .. => [line]
  | .fenced b => b.lines

/-- Whether a line is near enough to a heading to be read as one: any white space will do, as long
as there is something after it. -/
def LooksLikeHeading (line : Text) : Prop :=
  ∃ level blank c rest, 1 ≤ level ∧ level ≤ 6 ∧ Text.isBlank blank = true ∧
    afterIndent line = List.replicate level '#' ++ blank :: c :: rest

/-- Whether a line is near enough to an opening fence to be read as one: no matter what is after
the marks. -/
def LooksLikeFence (line : Text) : Prop :=
  ∃ mark, (mark = backtick ∨ mark = '~') ∧ List.replicate 3 mark <+: afterIndent line

/-- The elements that are read as what they are. -/
def Element.IsPlain : Element → Prop
  | .heading h => (h.title ≠ [] ∧ (∀ c ∈ h.title.head?, Text.isBlank c = false) ∧
        ∀ c ∈ h.title.getLast?, Text.isBlank c = false) ∨
      (h.title.length = 1 ∧ h.closing = [])
  | .prose line .. => ¬ LooksLikeHeading line ∧ ¬ LooksLikeFence line
  | .fenced b => ∀ line ∈ b.body, ¬ b.marks <+: Text.trimStart line

end ApiReference.Markdown
