import ApiReference.Proofs.Syntax.Lexeme.Tight

/-!
# Numbers

Numbers end where white space begins, and there is no semicolon and no opening brace in them. Main
statements: `tight_number`, `keeps_number`.
-/

namespace ApiReference.Syntax.Lexeme

open Reflow (Pauses)

variable {w s t : Text} {c : Char}

/-- A digit of a decimal number, or a low line between its digits. -/
def isFigure (c : Char) : Bool := c.isDigit || c == '_'

/-- The point and the digits after it. -/
def fraction : Text → Nat
  | '.' :: rest => 1 + (rest.takeWhile isFigure).length
  | _ => 0

def exponent : Text → Nat
  | e :: rest =>
    if e == 'e' || e == 'E' then
      match rest with
      | sign :: more =>
        if sign == '+' || sign == '-' then 2 + (more.takeWhile Char.isDigit).length
        else 1 + (rest.takeWhile Char.isDigit).length
      | [] => 0
    else 0
  | [] => 0

/-- The letter of a big integer. -/
def bigSuffix (t : Text) : Nat := if t.head? == some 'n' then 1 else 0

theorem isFigure_of_isWhite (c : Char) (white : isWhite c = true) : isFigure c = false :=
  eq_false_of_isWhite (f := isFigure) (by decide) (by decide) (by decide) (by decide) c white

theorem isDigit_of_isWhite (c : Char) (white : isWhite c = true) : c.isDigit = false :=
  eq_false_of_isWhite (f := Char.isDigit) (by decide) (by decide) (by decide) (by decide) c white

theorem fraction_of_ne (other : t.head? ≠ some '.') : fraction t = 0 := by
  unfold fraction
  split
  · exact absurd rfl other
  · rfl

theorem tight_fraction : Tight fraction := by
  refine .of_append (fun t => ?_) fun w s _ pauses => ?_
  · unfold fraction
    split
    · next rest =>
        have := length_takeWhile_le isFigure rest
        rw [List.length_cons]
        omega
    · exact Nat.zero_le _
  · by_cases point : w.head? = some '.'
    · obtain ⟨u, rfl⟩ := List.head?_eq_some_iff.1 point
      rw [List.cons_append, fraction, fraction, takeWhile_append isFigure_of_isWhite u pauses]
    · have other : (w ++ s).head? ≠ some '.' := by
        cases w with
        | nil => exact head?_ne_of_pauses pauses (by decide)
        | cons c w => exact point
      rw [fraction_of_ne point, fraction_of_ne other]

/-- Whether the exponent of a number begins with a character. -/
def isExponentMark (c : Char) : Bool := c == 'e' || c == 'E'

/-- The digits of an exponent with the sign before them. -/
def signed (t : Text) : Nat :=
  if t.head?.any fun c => c == '+' || c == '-' then 1 + ((t.drop 1).takeWhile Char.isDigit).length
  else (t.takeWhile Char.isDigit).length

theorem exponent_of_not (other : t.head?.any isExponentMark = false) : exponent t = 0 := by
  unfold exponent
  split
  · next e rest => exact if_neg (Bool.eq_false_iff.1 other)
  · rfl

theorem exponent_cons (mark : isExponentMark c = true) (more : t ≠ []) :
    exponent (c :: t) = 1 + signed t := by
  have begins : (c == 'e' || c == 'E') = true := mark
  cases t with
  | nil => exact absurd rfl more
  | cons d t =>
      rw [exponent, if_pos begins, signed, List.head?_cons, Option.any_some]
      split
      · rw [List.drop_one, List.tail_cons, ← Nat.add_assoc]
      · rfl

theorem exponent_singleton (c : Char) : exponent [c] = 0 := by
  rw [exponent]
  split <;> rfl

theorem tight_signed : Tight signed := by
  refine .of_append (fun t => ?_) fun w s _ pauses => ?_
  · have all := length_takeWhile_le Char.isDigit t
    have rest := length_takeWhile_le Char.isDigit (t.drop 1)
    unfold signed
    split
    · next sign =>
        cases t with
        | nil => cases sign
        | cons c t =>
            rw [List.drop_one, List.tail_cons] at rest ⊢
            rw [List.length_cons]
            omega
    · exact all
  · have sign := eq_false_of_isWhite (f := fun c => c == '+' || c == '-') (by decide) (by decide)
      (by decide) (by decide)
    rw [signed, signed, any_head?_append sign w pauses,
      takeWhile_append isDigit_of_isWhite w pauses]
    cases w with
    | nil =>
        rw [List.head?_nil, Option.any_none, if_neg Bool.false_ne_true, if_neg Bool.false_ne_true]
    | cons c w =>
        rw [List.cons_append, List.drop_one, List.drop_one, List.tail_cons, List.tail_cons,
          takeWhile_append isDigit_of_isWhite w pauses]

theorem isExponentMark_of_isWhite (c : Char) (white : isWhite c = true) :
    isExponentMark c = false :=
  eq_false_of_isWhite (f := isExponentMark) (by decide) (by decide) (by decide) (by decide) c white

-- Without anything after it the letter is no exponent, but before white space it is one without
-- digits: the only place where the end of the text differs from white space.
theorem tight_exponent : Tight exponent where
  length_le w s solid pauses := by
    have begins := any_head?_append isExponentMark_of_isWhite w pauses
    cases mark : w.head?.any isExponentMark with
    | false =>
        rw [exponent_of_not (begins.trans mark)]
        exact Nat.zero_le _
    | true =>
        cases w with
        | nil => cases mark
        | cons c w =>
            by_cases more : w ++ s = []
            · rw [List.cons_append, more, exponent_singleton]
              exact Nat.zero_le _
            · have le :=
                tight_signed.length_le w s (fun c member => solid c (.tail _ member)) pauses
              rw [List.cons_append, exponent_cons mark more, List.length_cons]
              omega
  eq w s t solid pauses pauses' ends := by
    cases mark : w.head?.any isExponentMark with
    | false =>
        rw [exponent_of_not ((any_head?_append isExponentMark_of_isWhite w pauses).trans mark),
          exponent_of_not ((any_head?_append isExponentMark_of_isWhite w pauses').trans mark)]
    | true =>
        cases w with
        | nil => cases mark
        | cons c w =>
            have both : w ++ s = [] ↔ w ++ t = [] := by
              rw [List.append_eq_nil_iff, List.append_eq_nil_iff, ends]
            by_cases more : w ++ s = []
            · rw [List.cons_append, List.cons_append, more, both.1 more]
            · rw [List.cons_append, List.cons_append, exponent_cons mark more,
                exponent_cons mark (mt both.2 more),
                tight_signed.eq w s t (fun c member => solid c (.tail _ member)) pauses pauses'
                  ends]

theorem tight_bigSuffix : Tight bigSuffix := by
  refine .of_append (fun t => ?_) fun w s _ pauses => ?_
  · cases t with
    | nil => exact Nat.le_refl 0
    | cons c t =>
        unfold bigSuffix
        split
        · exact Nat.succ_le_succ (Nat.zero_le _)
        · exact Nat.zero_le _
  · have same : ((w ++ s).head? == some 'n') = (w.head? == some 'n') := by
      cases w with
      | cons c w => rfl
      | nil => exact beq_eq_false_iff_ne.2 (head?_ne_of_pauses pauses (by decide))
    rw [bigSuffix, bigSuffix, same]

theorem tight_numberTail : Tight numberTail :=
  (((tight_takeWhile isFigure_of_isWhite).andThen tight_fraction).andThen tight_exponent).andThen
    tight_bigSuffix

def beginsBased (t : Text) : Bool :=
  t.head? == some '0' && (t.drop 1).head?.any ['x', 'X', 'o', 'O', 'b', 'B'].contains

def beginsDecimal (t : Text) : Bool :=
  t.head?.any Char.isDigit || (t.head? == some '.' && (t.drop 1).head?.any Char.isDigit)

theorem number_eq (t : Text) : number t =
    if beginsBased t then 2 + ((t.drop 2).takeWhile numberPart).length
    else if beginsDecimal t then numberTail t else 0 := by
  unfold number
  split
  · next c rest =>
      have based : beginsBased ('0' :: c :: rest) = ['x', 'X', 'o', 'O', 'b', 'B'].contains c := rfl
      have decimal : beginsDecimal ('0' :: c :: rest) = true := rfl
      rw [based, decimal, if_pos rfl]
      rfl
  · next c rest other =>
      have based : beginsBased (c :: rest) = false := by
        rw [beginsBased, Bool.and_eq_false_iff]
        cases rest with
        | nil => exact .inr rfl
        | cons d rest =>
            exact .inl (beq_eq_false_iff_ne.2 fun zero => other d rest (Option.some.inj zero) rfl)
      have decimal : beginsDecimal (c :: rest) =
        (c.isDigit || (c == '.' && rest.head?.any Char.isDigit)) := rfl
      rw [based, if_neg Bool.false_ne_true, decimal]
      cases c.isDigit
      · rw [if_neg Bool.false_ne_true, Bool.false_or]
      · rw [if_pos rfl, Bool.true_or, if_pos rfl]
  · rfl

theorem numberPart_of_isWhite (c : Char) (white : isWhite c = true) : numberPart c = false :=
  eq_false_of_isWhite (f := numberPart) (by decide) (by decide) (by decide) (by decide) c white

theorem beginsBased_append (w : Text) (pauses : Pauses s) :
    beginsBased (w ++ s) = beginsBased w := by
  have letter := eq_false_of_isWhite (f := ['x', 'X', 'o', 'O', 'b', 'B'].contains) (by decide)
    (by decide) (by decide) (by decide)
  cases w with
  | nil =>
      rw [beginsBased, beginsBased, List.nil_append,
        beq_eq_false_iff_ne.2 (head?_ne_of_pauses pauses (by decide))]
      rfl
  | cons c w => exact congrArg (c == '0' && ·) (any_head?_append letter w pauses)

theorem beginsDecimal_append (w : Text) (pauses : Pauses s) :
    beginsDecimal (w ++ s) = beginsDecimal w := by
  cases w with
  | nil =>
      rw [beginsDecimal, beginsDecimal, any_head?_append isDigit_of_isWhite [] pauses,
        List.nil_append, beq_eq_false_iff_ne.2 (head?_ne_of_pauses pauses (by decide))]
      rfl
  | cons c w =>
      exact congrArg (fun b => c.isDigit || (c == '.' && b))
        (any_head?_append isDigit_of_isWhite w pauses)

theorem takeWhile_drop_append (w : Text) (based : beginsBased w = true) (pauses : Pauses s) :
    ((w ++ s).drop 2).takeWhile numberPart = (w.drop 2).takeWhile numberPart ∧ 2 ≤ w.length := by
  rcases w with _ | ⟨a, _ | ⟨b, w⟩⟩
  · cases based
  · rw [beginsBased, Bool.and_eq_true] at based
    exact nomatch based.2
  · exact ⟨takeWhile_append numberPart_of_isWhite w pauses, Nat.le_add_left 2 _⟩

theorem tight_number : Tight number where
  length_le w s solid pauses := by
    rw [number_eq, beginsBased_append w pauses, beginsDecimal_append w pauses]
    split
    · next based =>
        obtain ⟨same, long⟩ := takeWhile_drop_append w based pauses
        have le := length_takeWhile_le numberPart (w.drop 2)
        rw [List.length_drop] at le
        rw [same]
        omega
    · split
      · exact tight_numberTail.length_le w s solid pauses
      · exact Nat.zero_le _
  eq w s t solid pauses pauses' ends := by
    rw [number_eq, number_eq, beginsBased_append w pauses, beginsDecimal_append w pauses,
      beginsBased_append w pauses', beginsDecimal_append w pauses',
      tight_numberTail.eq w s t solid pauses pauses' ends]
    split
    · next based =>
        rw [(takeWhile_drop_append w based pauses).1, (takeWhile_drop_append w based pauses').1]
    · rfl

theorem closing_of_isFigure (fits : isFigure c = true) : Closing c :=
  closing_of (by decide) (by decide) fits

theorem closing_of_isDigit (fits : c.isDigit = true) : Closing c :=
  closing_of (by decide) (by decide) fits

theorem keeps_fraction : Keeps fraction := by
  intro t c member
  unfold fraction at member
  split at member
  · rcases mem_take_one_add member with rfl | later
    · exact ⟨by decide, by decide⟩
    · exact keeps_takeWhile (fun _ => closing_of_isFigure) _ c later
  · cases member

theorem keeps_signed : Keeps signed := by
  intro t c member
  unfold signed at member
  split at member
  · next sign =>
      cases t with
      | nil => cases sign
      | cons d t =>
          rcases mem_take_one_add member with rfl | later
          · exact closing_of (f := fun c => c == '+' || c == '-') (by decide) (by decide) sign
          · exact keeps_takeWhile (fun _ => closing_of_isDigit) t c later
  · exact keeps_takeWhile (fun _ => closing_of_isDigit) t c member

theorem keeps_exponent : Keeps exponent := by
  intro t c member
  cases mark : t.head?.any isExponentMark with
  | false =>
      rw [exponent_of_not mark] at member
      cases member
  | true =>
      cases t with
      | nil => cases mark
      | cons d t =>
          by_cases more : t = []
          · rw [more, exponent_singleton] at member
            cases member
          · rw [exponent_cons mark more] at member
            rcases mem_take_one_add member with rfl | later
            · exact closing_of (f := isExponentMark) (by decide) (by decide) mark
            · exact keeps_signed t c later

theorem keeps_bigSuffix : Keeps bigSuffix := by
  intro t c member
  unfold bigSuffix at member
  split at member
  · next big =>
      obtain ⟨u, rfl⟩ := List.head?_eq_some_iff.1 (eq_of_beq big)
      obtain rfl := List.mem_singleton.1 member
      exact ⟨by decide, by decide⟩
  · cases member

theorem keeps_numberTail : Keeps numberTail :=
  (((keeps_takeWhile fun _ => closing_of_isFigure).andThen keeps_fraction).andThen
    keeps_exponent).andThen keeps_bigSuffix

theorem keeps_number : Keeps number := by
  intro t c member
  rw [number_eq] at member
  split at member
  · next based =>
      have part (c : Char) (fits : numberPart c = true) : Closing c :=
        closing_of (by decide) (by decide) fits
      have letter (c : Char) (fits : ['x', 'X', 'o', 'O', 'b', 'B'].contains c = true) :
          Closing c :=
        closing_of (by decide) (by decide) fits
      rcases t with _ | ⟨a, _ | ⟨b, t⟩⟩
      · cases based
      · rw [beginsBased, Bool.and_eq_true] at based
        exact nomatch based.2
      · obtain ⟨zero, base⟩ := Bool.and_eq_true_iff.1 based
        rw [show 2 + ((a :: b :: t).drop 2 |>.takeWhile numberPart).length =
          1 + (1 + (t.takeWhile numberPart).length) by rw [← Nat.add_assoc]; rfl] at member
        rcases mem_take_one_add member with rfl | later
        · rw [Option.some.inj (eq_of_beq zero)]
          exact ⟨by decide, by decide⟩
        · rcases mem_take_one_add later with rfl | later
          · exact letter _ base
          · exact keeps_takeWhile part t c later
  · split at member
    · exact keeps_numberTail t c member
    · cases member

end ApiReference.Syntax.Lexeme
