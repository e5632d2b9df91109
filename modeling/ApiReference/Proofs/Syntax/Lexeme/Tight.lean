import ApiReference.Proofs.Syntax.Reflow
import ApiReference.Syntax.Grammar.Expression
import Mathlib.Data.List.Find

/-!
# Tokens that white space ends

Names, numbers, words and marks are read no further than the next white space, so it makes no
difference to them how much of it there is. Main statement: `Tight.cut`.
-/

namespace ApiReference.Syntax

open Reflow (Pauses)

/-- Both texts are cut in two, and both parts of one differ from those of the other only in gaps. -/
structure Cut (p : Layout) (s t : Text) (j k : Nat) (r q : Layout) : Prop where
  le : j ≤ s.length
  le' : k ≤ t.length
  front : Reflow p (s.take j) (t.take k) r
  back : Reflow r (s.drop j) (t.drop k) q

namespace Lexeme
variable {w s t : Text} {c : Char} {f : Char → Bool}

/-- A scan that does not look beyond the next white space. -/
structure Tight (scan : Text → Nat) : Prop where
  length_le (w s : Text) (solid : ∀ c ∈ w, isWhite c = false) (pauses : Pauses s) :
    scan (w ++ s) ≤ w.length
  eq (w s t : Text) (solid : ∀ c ∈ w, isWhite c = false) (pauses : Pauses s) (pauses' : Pauses t)
    (ends : s = [] ↔ t = []) : scan (w ++ s) = scan (w ++ t)

theorem Tight.of_append {scan : Text → Nat} (length_le : ∀ t, scan t ≤ t.length)
    (append : ∀ w s, (∀ c ∈ w, isWhite c = false) → Pauses s → scan (w ++ s) = scan w) :
    Tight scan where
  length_le w s solid pauses := append w s solid pauses ▸ length_le w
  eq w s t solid pauses pauses' _ := (append w s solid pauses).trans (append w t solid pauses').symm

/-- A tight scan cuts the same characters off both texts. -/
theorem Tight.cut {scan : Text → Nat} (tight : Tight scan) {p q : Layout}
    (reflow : Reflow p s t q) : scan t = scan s ∧ ∃ r, Cut p s t (scan s) (scan t) r q := by
  obtain ⟨-, w, s, t, rfl, rfl, solid, -, -, pauses, pauses', ends⟩ := reflow.exists_solid
  have same := tight.eq w s t solid pauses pauses' ends
  have le := tight.length_le w s solid pauses
  rw [← same]
  refine ⟨rfl, ?_⟩
  generalize scan (w ++ s) = k at le
  obtain ⟨u, v, rfl, length⟩ : ∃ u v, w = u ++ v ∧ u.length = k :=
    ⟨w.take k, w.drop k, (List.take_append_drop k w).symm, List.length_take_of_le le⟩
  subst length
  rw [List.append_assoc, List.append_assoc] at reflow ⊢
  obtain ⟨r, t', whole, front, back⟩ := reflow.exists_of_append (List.forall_mem_append.1 solid).1
  cases List.append_cancel_left whole
  refine ⟨r, ?_, ?_, ?_, ?_⟩
  · exact List.length_append ▸ Nat.le_add_right _ _
  · exact List.length_append ▸ Nat.le_add_right _ _
  · rwa [List.take_left, List.take_left]
  · rwa [List.drop_left, List.drop_left]

/-- A scan and another one from where it ends. -/
theorem Tight.andThen {first second : Text → Nat} (tight : Tight first) (tight' : Tight second) :
    Tight fun t => first t + second (t.drop (first t)) where
  length_le w s solid pauses := by
    have le := tight.length_le w s solid pauses
    have rest := tight'.length_le (w.drop (first (w ++ s))) s
      (fun c member => solid c (List.mem_of_mem_drop member)) pauses
    rw [List.length_drop, ← List.drop_append_of_le_length le] at rest
    omega
  eq w s t solid pauses pauses' ends := by
    have le := tight.length_le w s solid pauses
    have rest := tight'.eq (w.drop (first (w ++ s))) s t
      (fun c member => solid c (List.mem_of_mem_drop member)) pauses pauses' ends
    rw [← List.drop_append_of_le_length le, ← List.drop_append_of_le_length le] at rest
    rw [← tight.eq w s t solid pauses pauses' ends, rest]

/-- A scan that is done only where a text begins in a certain way. -/
theorem Tight.onlyIf {scan : Text → Nat} (tight : Tight scan) {begins : Text → Bool}
    (append : ∀ w s, Pauses s → begins (w ++ s) = begins w) :
    Tight fun t => if begins t then scan t else 0 where
  length_le w s solid pauses := by
    split
    · exact tight.length_le w s solid pauses
    · exact Nat.zero_le _
  eq w s t solid pauses pauses' ends := by
    rw [append w s pauses, append w t pauses', tight.eq w s t solid pauses pauses' ends]

/-- A class without white space. -/
theorem eq_false_of_isWhite (space : f ' ' = false) (tab : f '\t' = false)
    (lineFeed : f '\n' = false) (carriageReturn : f '\r' = false) (c : Char)
    (white : isWhite c = true) : f c = false :=
  isWhite_cases (P := fun c => f c = false) space tab lineFeed carriageReturn white

theorem isNamePart_of_isWhite (white : isWhite c = true) : isNamePart c = false :=
  eq_false_of_isWhite (f := isNamePart) (by decide) (by decide) (by decide) (by decide) c white

/-- A character that is not white is not the first one where a text pauses. -/
theorem head?_ne_of_pauses (pauses : Pauses s) (visible : isWhite c = false) : s.head? ≠ some c :=
  fun first => absurd (pauses c first) (Bool.eq_false_iff.1 visible)

theorem takeWhile_append (stops : ∀ c, isWhite c = true → f c = false) (w : Text)
    (pauses : Pauses s) : (w ++ s).takeWhile f = w.takeWhile f := by
  induction w with
  | nil =>
      cases s with
      | nil => rfl
      | cons c s =>
          exact List.takeWhile_cons_of_neg (Bool.eq_false_iff.1 (stops c (pauses c rfl)))
  | cons c w ih =>
      cases fits : f c with
      | true =>
          rw [List.cons_append, List.takeWhile_cons_of_pos fits, ih,
            List.takeWhile_cons_of_pos fits]
      | false =>
          have ends := Bool.eq_false_iff.1 fits
          rw [List.cons_append, List.takeWhile_cons_of_neg ends, List.takeWhile_cons_of_neg ends]

theorem any_head?_append (stops : ∀ c, isWhite c = true → f c = false) (w : Text)
    (pauses : Pauses s) : (w ++ s).head?.any f = w.head?.any f := by
  cases w with
  | cons c w => rfl
  | nil =>
      cases s with
      | nil => rfl
      | cons c s => exact stops c (pauses c rfl)

theorem length_takeWhile_le (f : Char → Bool) (t : Text) : (t.takeWhile f).length ≤ t.length :=
  (List.takeWhile_sublist f).length_le

theorem tight_takeWhile (stops : ∀ c, isWhite c = true → f c = false) :
    Tight fun t => (t.takeWhile f).length :=
  .of_append (length_takeWhile_le f) fun w _ _ pauses =>
    congrArg List.length (takeWhile_append stops w pauses)

/-- What stands after the run of a tight class, if anything of the text does, is in the text. -/
theorem head?_drop_append {n : Nat} {c : Char} (le : n ≤ w.length) (pauses : Pauses s)
    (visible : isWhite c = false) :
    ((w ++ s).drop n).head? = some c ↔ (w.drop n).head? = some c := by
  rw [List.drop_append_of_le_length le]
  cases w.drop n with
  | nil => exact iff_of_false (head?_ne_of_pauses pauses visible) nofun
  | cons d u => exact Iff.rfl

/-- A character after which no line end may be added or taken away. -/
def Closing (c : Char) : Prop := c ≠ ';' ∧ c ≠ '{'

instance (c : Char) : Decidable (Closing c) := instDecidableAnd

/-- Whatever a scan finds ends in a closing character. -/
def Closes (scan : Text → Nat) : Prop :=
  ∀ t : Text, ∀ c ∈ (t.take (scan t)).getLast?, Closing c

/-- A scan finds closing characters only. -/
def Keeps (scan : Text → Nat) : Prop := ∀ t : Text, ∀ c ∈ t.take (scan t), Closing c

theorem Keeps.closes {scan : Text → Nat} (keeps : Keeps scan) : Closes scan :=
  fun t c last => keeps t c (List.mem_of_getLast? last)

theorem closing_of (semicolon : f ';' = false) (brace : f '{' = false) (fits : f c = true) :
    Closing c := by
  constructor
  · rintro rfl
    exact absurd fits (Bool.eq_false_iff.1 semicolon)
  · rintro rfl
    exact absurd fits (Bool.eq_false_iff.1 brace)

theorem Keeps.andThen {first second : Text → Nat} (keeps : Keeps first) (keeps' : Keeps second) :
    Keeps fun t => first t + second (t.drop (first t)) := by
  intro t c member
  rw [List.take_add, List.mem_append] at member
  exact member.elim (keeps t c) (keeps' _ c)

theorem keeps_takeWhile (closing : ∀ c, f c = true → Closing c) :
    Keeps fun t => (t.takeWhile f).length := by
  intro t c member
  have taken : t.take (t.takeWhile f).length = t.takeWhile f :=
    List.prefix_iff_eq_take.1 (List.takeWhile_prefix f) |>.symm
  rw [taken] at member
  exact closing c (List.mem_takeWhile_imp member)

theorem mem_take_one_add {d : Char} {k : Nat} (member : d ∈ (c :: t).take (1 + k)) :
    d = c ∨ d ∈ t.take k := by
  rwa [Nat.add_comm, List.take_succ_cons, List.mem_cons] at member

/-- The last of so many characters. -/
theorem getLast?_take_succ {n : Nat} (found : (t.drop n).head? = some c) :
    (t.take (n + 1)).getLast? = some c := by
  rw [List.head?_drop] at found
  rw [List.take_add_one, found, Option.toList_some, List.getLast?_concat]

theorem getLast?_take_one_add {k : Nat} (some : t.take k ≠ []) :
    ((c :: t).take (1 + k)).getLast? = (t.take k).getLast? := by
  rw [Nat.add_comm, List.take_succ_cons, ← List.singleton_append,
    List.getLast?_append_of_ne_nil _ some]

theorem take_ne_nil {k : Nat} (some : 0 < k) (le : k ≤ t.length) : t.take k ≠ [] :=
  List.length_pos_iff.1 (by rw [List.length_take_of_le le]; exact some)

theorem Closes.andThen {first second : Text → Nat} (closes : Closes first)
    (closes' : Closes second) : Closes fun t => first t + second (t.drop (first t)) := by
  intro t c last
  rw [List.take_add] at last
  by_cases more : (t.drop (first t)).take (second (t.drop (first t))) = []
  · rw [more, List.append_nil] at last
    exact closes t c last
  · rw [List.getLast?_append_of_ne_nil _ more] at last
    exact closes' _ c last

theorem stripStart_pauses {m : Text} (visible : ∀ c ∈ m, isWhite c = false) (w : Text)
    (pauses : Pauses s) : Text.stripStart m (w ++ s) = (Text.stripStart m w).map (· ++ s) := by
  induction m generalizing w with
  | nil => rfl
  | cons b m ih =>
      obtain ⟨first, rest⟩ := List.forall_mem_cons.1 visible
      cases w with
      | nil =>
          cases s with
          | nil => rfl
          | cons c s =>
              refine if_neg fun same => ?_
              rw [same, pauses c rfl] at first
              cases first
      | cons c w =>
          rw [List.cons_append, Text.stripStart, Text.stripStart, ih rest]
          split <;> rfl

theorem isWhite_eq_false_of_isNamePart (part : isNamePart c = true) : isWhite c = false :=
  Bool.eq_false_iff.2 fun white => absurd part (Bool.eq_false_iff.1 (isNamePart_of_isWhite white))

theorem isWhite_eq_false_of_mem_marks (sign : marks.contains c = true) : isWhite c = false := by
  refine Bool.eq_false_iff.2 fun white => absurd sign (Bool.eq_false_iff.1 ?_)
  exact eq_false_of_isWhite (f := marks.contains) (by decide) (by decide) (by decide) (by decide) c
    white

/-- Given characters, not followed by one of a class: a word or a mark. -/
def fixed (m : Text) (f : Char → Bool) (t : Text) : Nat :=
  match Text.stripStart m t with
  | some rest => if rest.head?.any f then 0 else m.length
  | none => 0

theorem tight_fixed {m : Text} (visible : ∀ c ∈ m, isWhite c = false)
    (stops : ∀ c, isWhite c = true → f c = false) : Tight (fixed m f) := by
  refine .of_append (fun t => ?_) fun w s solid pauses => ?_
  · unfold fixed
    split
    · next rest found =>
        split
        · exact Nat.zero_le _
        · rw [Text.stripStart_eq_some_iff.1 found, List.length_append]
          exact Nat.le_add_right _ _
    · exact Nat.zero_le _
  · rw [fixed, fixed, stripStart_pauses visible w pauses]
    cases Text.stripStart m w with
    | none => rfl
    | some rest => simp only [Option.map_some, any_head?_append stops rest pauses]

theorem keeps_fixed {m : Text} (closing : ∀ c ∈ m, Closing c) : Keeps (fixed m f) := by
  intro t c member
  unfold fixed at member
  split at member
  · next rest found =>
      split at member
      · cases member
      · rw [Text.stripStart_eq_some_iff.1 found, List.take_left] at member
        exact closing c member
  · cases member

theorem tight_mark {m forbidden : Text} (signs : m.all marks.contains = true)
    (others : forbidden.all marks.contains = true) : Tight (mark m forbidden) := by
  have stops (c : Char) (white : isWhite c = true) : forbidden.contains c = false := by
    refine Bool.eq_false_iff.2 fun member => ?_
    have sign := List.all_eq_true.1 others c (List.contains_iff_mem.1 member)
    exact absurd white (Bool.eq_false_iff.1 (isWhite_eq_false_of_mem_marks sign))
  exact tight_fixed (fun c member => isWhite_eq_false_of_mem_marks (List.all_eq_true.1 signs c member))
    stops

theorem tight_word {m : Text} (letters : m.all isNamePart = true) : Tight (word m) :=
  tight_fixed
    (fun c member => isWhite_eq_false_of_isNamePart (List.all_eq_true.1 letters c member))
    fun _ => isNamePart_of_isWhite

theorem keeps_word {m : Text} (letters : m.all isNamePart = true) : Keeps (word m) :=
  keeps_fixed fun c member =>
    closing_of (by decide) (by decide) (List.all_eq_true.1 letters c member)

theorem keeps_mark {m forbidden : Text} (closing : ∀ c ∈ m, Closing c) :
    Keeps (mark m forbidden) := keeps_fixed closing

theorem startsWith_pauses {m : Text} (visible : ∀ c ∈ m, isWhite c = false) (w : Text)
    (pauses : Pauses s) : Text.startsWith m (w ++ s) = Text.startsWith m w := by
  rw [Text.startsWith, Text.startsWith, stripStart_pauses visible w pauses, Option.isSome_map]

theorem tight_operator : Tight operator := by
  have visible : ∀ o ∈ operators, ∀ c ∈ o, isWhite c = false := by decide
  refine .of_append (fun t => ?_) fun w s solid pauses => ?_
  · unfold operator
    split
    · exact Nat.zero_le _
    · split
      · next o found =>
          have begins : Text.startsWith o t = true :=
            List.find?_some (p := fun o => Text.startsWith o t) found
          obtain ⟨rest, rfl⟩ := Text.startsWith_iff.1 begins
          rw [List.length_append]
          exact Nat.le_add_right _ _
      · exact Nat.zero_le _
  · have same : operators.find? (fun o => Text.startsWith o (w ++ s)) =
        operators.find? (fun o => Text.startsWith o w) :=
      List.find?_congr fun o member => startsWith_pauses (visible o member) w pauses
    rw [operator, operator, same, startsWith_pauses (by decide) w pauses,
      startsWith_pauses (by decide) w pauses, startsWith_pauses (by decide) w pauses]

theorem keeps_operator : Keeps operator := by
  have closing : ∀ o ∈ operators, ∀ c ∈ o, Closing c := by decide
  intro t c member
  unfold operator at member
  split at member
  · cases member
  · split at member
    · next o found =>
        have begins : Text.startsWith o t = true :=
          List.find?_some (p := fun o => Text.startsWith o t) found
        obtain ⟨rest, rfl⟩ := Text.startsWith_iff.1 begins
        rw [List.take_left] at member
        exact closing o (List.mem_of_find?_eq_some found) c member
    · cases member

end Lexeme
end ApiReference.Syntax
