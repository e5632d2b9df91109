import ApiReference.Proofs.Text.Trimming
import Mathlib.Data.List.DropRight

/-!
# Blank lines at the ends

Lines without the blank ones at both ends are those from the first to the last that is not blank.
Main statements: `trims_trimLines`, `Trims.eq`.
-/

namespace ApiReference.Text

def isBlankLine (line : Text) : Bool := line.all isBlank

/-- Lines without blank ones at either end. -/
def trimLines (lines : List Text) : List Text := (lines.dropWhile isBlankLine).rdropWhile isBlankLine

/-- Whether some of the lines are those from the first to the last that is not blank. -/
structure Trims (lines kept : List Text) : Prop where
  around : ∃ before after, lines = before ++ (kept ++ after) ∧
    (∀ line ∈ before, isBlankLine line = true) ∧ ∀ line ∈ after, isBlankLine line = true
  first : ∀ line ∈ kept.head?, isBlankLine line = false
  last : ∀ line ∈ kept.getLast?, isBlankLine line = false

variable {lines kept : List Text}

theorem isBlankLine_iff {line : Text} :
    isBlankLine line = true ↔ ∀ c ∈ line, isBlank c = true := List.all_eq_true

theorem isBlankLine_append {a b : Text} :
    isBlankLine (a ++ b) = true ↔ isBlankLine a = true ∧ isBlankLine b = true := by
  rw [isBlankLine, List.all_append, Bool.and_eq_true]
  rfl

theorem trimEnd_of_isBlankLine {t : Text} (blank : isBlankLine t = true) : trimEnd t = [] :=
  trimEndOf_eq_nil_iff.2 (isBlankLine_iff.1 blank)

theorem trimStart_append {blanks : Text} (blank : isBlankLine blanks = true) (t : Text) :
    trimStart (blanks ++ t) = trimStart t :=
  List.dropWhile_append_of_pos (isBlankLine_iff.1 blank)

theorem trimStart_cons {c : Char} (filled : isBlank c = false) (t : Text) :
    trimStart (c :: t) = c :: t :=
  List.dropWhile_cons_of_neg (Bool.eq_false_iff.1 filled)

theorem exists_of_not_isBlankLine {t : Text} (filled : isBlankLine t = false) :
    ∃ blanks c rest, t = blanks ++ c :: rest ∧ isBlankLine blanks = true ∧ isBlank c = false := by
  have some : t.dropWhile isBlank ≠ [] := fun nothing => by
    rw [isBlankLine_iff.2 (List.dropWhile_eq_nil_iff.1 nothing)] at filled
    cases filled
  obtain ⟨c, rest, start⟩ := List.exists_cons_of_ne_nil some
  refine ⟨t.takeWhile isBlank, c, rest, ?_, isBlankLine_iff.2 fun _ => List.mem_takeWhile_imp, ?_⟩
  · rw [← start, List.takeWhile_append_dropWhile]
  · exact head?_dropWhile isBlank t c (by rw [start]; rfl)

theorem isBlankLine_eq_false_of_head? (rows : List Text) {line : Text}
    (first : (rows.dropWhile isBlankLine).head? = some line) : isBlankLine line = false := by
  have := List.head?_dropWhile_not isBlankLine rows
  rwa [first] at this

theorem trims_trimLines (lines : List Text) : Trims lines (trimLines lines) := by
  have front := List.takeWhile_append_dropWhile (p := isBlankLine) (l := lines)
  have back : trimLines lines ++ (lines.dropWhile isBlankLine).rtakeWhile isBlankLine =
      lines.dropWhile isBlankLine := List.rdropWhile_append_rtakeWhile
  refine ⟨⟨lines.takeWhile isBlankLine, (lines.dropWhile isBlankLine).rtakeWhile isBlankLine, ?_,
    fun _ => List.mem_takeWhile_imp, fun _ => List.mem_rtakeWhile_imp⟩, ?_, ?_⟩
  · exact front.symm.trans (congrArg (lines.takeWhile isBlankLine ++ ·) back.symm)
  · intro line first
    apply isBlankLine_eq_false_of_head? lines
    rw [← back, List.head?_append, Option.mem_def.1 first, Option.some_or]
  · intro line last
    apply isBlankLine_eq_false_of_head? (lines.dropWhile isBlankLine).reverse
    rw [← List.getLast?_reverse]
    exact last

/-- There is no other way to leave out blank lines at the ends. -/
theorem Trims.eq (trims : Trims lines kept) : trimLines lines = kept := by
  obtain ⟨⟨before, after, rfl, front, back⟩, first, last⟩ := trims
  rw [trimLines, List.dropWhile_append_of_pos front]
  cases kept with
  | nil => rw [List.nil_append, List.dropWhile_eq_nil_iff.2 back, List.rdropWhile_nil]
  | cons line kept =>
      have start : ¬ isBlankLine line = true := Bool.eq_false_iff.1 (first line rfl)
      rw [List.cons_append, List.dropWhile_cons_of_neg start, ← List.cons_append, List.rdropWhile,
        List.reverse_append,
        List.dropWhile_append_of_pos fun line member => back line (List.mem_reverse.1 member)]
      refine List.rdropWhile_eq_self_iff.2 fun some => Bool.eq_false_iff.1 ?_
      exact last _ (List.getLast?_eq_getLast_of_ne_nil some)

theorem trimLines_singleton (line : Text) :
    trimLines [line] = if isBlankLine line then [] else [line] := by
  rw [trimLines, List.dropWhile_cons]
  split
  · rfl
  · next filled => rw [← List.nil_append [line], List.rdropWhile_concat_neg _ _ _ filled]

/-- Blank lines around others are left out with those at their ends. -/
theorem trimLines_append {before after : List Text} (lines : List Text)
    (front : ∀ line ∈ before, isBlankLine line = true)
    (back : ∀ line ∈ after, isBlankLine line = true) :
    trimLines (before ++ (lines ++ after)) = trimLines lines := by
  obtain ⟨⟨start, rest, split, first, second⟩, head, last⟩ := trims_trimLines lines
  refine Trims.eq ⟨⟨before ++ start, rest ++ after, ?_, ?_, ?_⟩, head, last⟩
  · conv_lhs => rw [split]
    simp only [List.append_assoc]
  · exact List.forall_mem_append.2 ⟨front, first⟩
  · exact List.forall_mem_append.2 ⟨second, back⟩

end ApiReference.Text
