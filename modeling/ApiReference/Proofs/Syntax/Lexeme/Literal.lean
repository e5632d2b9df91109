import ApiReference.Proofs.Syntax.Lexeme.Tight

/-!
# Strings, templates, regular expressions and comments

What white space does not end is read across gaps of both texts, up to the same place. Main
statements: `agree_string`, `agree_template`, `agree_regex`, `agree_comment`.
-/

namespace ApiReference.Syntax

/-- Scans of two texts find nothing in either of them or cut both alike. -/
inductive Agree (p q : Layout) (s t : Text) (P : Layout → Prop) :
    Option Nat → Option Nat → Prop where
  | none : Agree p q s t P none none
  | some {j k : Nat} {r : Layout} (cut : Cut p s t j k r q) (ends : P r) :
      Agree p q s t P (some j) (some k)

variable {p q r : Layout} {s t u v : Text} {c : Char} {P : Layout → Prop} {o o' : Option Nat}

theorem Cut.after (front : Reflow p u v r) {j k : Nat} {r' : Layout} (cut : Cut r s t j k r' q) :
    Cut p (u ++ s) (v ++ t) (j + u.length) (k + v.length) r' q where
  le := by
    rw [List.length_append, Nat.add_comm]
    exact Nat.add_le_add_left cut.le _
  le' := by
    rw [List.length_append, Nat.add_comm]
    exact Nat.add_le_add_left cut.le' _
  front := by
    rw [Nat.add_comm j, Nat.add_comm k, List.take_length_add_append, List.take_length_add_append]
    exact front.append cut.front
  back := by
    rw [Nat.add_comm j, Nat.add_comm k, List.drop_length_add_append, List.drop_length_add_append]
    exact cut.back

/-- A scan that goes on behind what both texts begin with. -/
theorem Agree.after (front : Reflow p u v r) (agree : Agree r q s t P o o') :
    Agree p q (u ++ s) (v ++ t) P (o.map (· + u.length)) (o'.map (· + v.length)) := by
  cases agree with
  | none => exact .none
  | some cut ends => exact .some (cut.after front) ends

theorem Agree.cons (one : Reflow p [c] [c] (p.next c)) (agree : Agree (p.next c) q s t P o o') :
    Agree p q (c :: s) (c :: t) P (o.map (· + 1)) (o'.map (· + 1)) := agree.after one

/-- A scan that goes on behind a cut. -/
theorem Agree.afterCut {j k : Nat} (cut : Cut p s t j k r q)
    (agree : Agree r q (s.drop j) (t.drop k) P o o') :
    Agree p q s t P (o.map (· + j)) (o'.map (· + k)) := by
  have whole := agree.after cut.front
  rwa [List.take_append_drop, List.take_append_drop, List.length_take_of_le cut.le,
    List.length_take_of_le cut.le'] at whole

/-- A cut behind the first character. -/
theorem Cut.tail {j k : Nat} (visible : isWhite c = false)
    (cut : Cut p (c :: s) (c :: t) (j + 1) (k + 1) r q) : Cut (p.next c) s t j k r q := by
  have spacing : isSpacing c = false :=
    (Bool.or_eq_false_iff.1 (Bool.or_eq_false_iff.1 visible).1).1
  obtain ⟨t', same, -, front⟩ := Reflow.uncons cut.front spacing (.inl visible)
  cases same
  exact ⟨Nat.le_of_succ_le_succ cut.le, Nat.le_of_succ_le_succ cut.le', front, cut.back⟩

theorem Cut.here (back : Reflow p s t q) : Cut p s t 0 0 p q :=
  ⟨Nat.zero_le _, Nat.zero_le _, .nil, back⟩

/-- Scans of two texts find nothing in both of them or cut both alike. -/
def CutsAlike (p q : Layout) (s t : Text) (P : Layout → Prop) (j k : Nat) : Prop :=
  (j = 0 ∧ k = 0) ∨ (j ≠ 0 ∧ k ≠ 0 ∧ ∃ r, Cut p s t j k r q ∧ P r)

theorem Agree.cutsAlike (agree : Agree p q s t P (o.map (· + 1)) (o'.map (· + 1))) :
    CutsAlike p q s t P ((o.map (· + 1)).getD 0) ((o'.map (· + 1)).getD 0) := by
  cases o with
  | none =>
      cases o' with
      | none => exact .inl ⟨rfl, rfl⟩
      | some k => cases agree
  | some j =>
      cases o' with
      | none => cases agree
      | some k =>
          cases agree with
          | some cut ends => exact .inr ⟨Nat.succ_ne_zero j, Nat.succ_ne_zero k, _, cut, ends⟩

namespace Layout

theorem isOpen_of_bound (bound : p.free = false) : p.isOpen = false := by
  rw [isOpen, bound]
  rfl

theorem bound_next (bound : p.free = false) (other : c ≠ '\n' ∨ p.last = '\\') :
    (p.next c).free = false := by
  rw [next, if_neg fun h => other.elim (· h.1) (h.2 ·), bound]
  rfl

theorem bound_of_begins (begins : beginsLineBound p.last c = true) (other : c ≠ '\n') :
    (p.next c).free = false := by
  rw [next, if_neg fun h => other h.1, begins, Bool.not_true, Bool.and_false]

end Layout

theorem Cut.of_span {f : Char → Bool} (front : Reflow p (s.takeWhile f) (t.takeWhile f) r)
    (back : Reflow r (s.dropWhile f) (t.dropWhile f) q) :
    Cut p s t (s.takeWhile f).length (t.takeWhile f).length r q where
  le := (List.takeWhile_sublist f).length_le
  le' := (List.takeWhile_sublist f).length_le
  front := by
    rwa [← List.prefix_iff_eq_take.1 (List.takeWhile_prefix f),
      ← List.prefix_iff_eq_take.1 (List.takeWhile_prefix f)]
  back := by
    rwa [Text.drop_length_takeWhile, Text.drop_length_takeWhile]

/-- A run that ends with its line at the latest, where something is bound to the line. -/
theorem cut_takeWhile_bound {f : Char → Bool} {b : Bool} (lineFeed : f '\n' = false)
    (spacing : ∀ c, isSpacing c = true → f c = b) (reflow : Reflow p s t q)
    (bound : p.free = false) : ∃ r, r.free = false ∧
      Cut p s t (s.takeWhile f).length (t.takeWhile f).length r q := by
  obtain ⟨r, still, front, back⟩ := reflow.span (I := fun p => p.free = false) spacing
    (fun p bound ends => absurd ends (Bool.eq_false_iff.1 (Layout.isOpen_of_bound bound)))
    (fun p bound => bound)
    (fun p c bound fits => Layout.bound_next bound
      (.inl fun same => absurd fits (Bool.eq_false_iff.1 (same ▸ lineFeed)))) bound
  exact ⟨r, still, .of_span front back⟩

/-- A character that is not white stands first in both texts or in none. -/
theorem Reflow.cases_visible (reflow : Reflow p s t q) (visible : isWhite c = false) :
    (∃ s' t', s = c :: s' ∧ t = c :: t' ∧ Reflow p [c] [c] (p.next c) ∧
      Reflow (p.next c) s' t' q) ∨ s.head? ≠ some c ∧ t.head? ≠ some c := by
  rcases reflow.cases_head with ⟨d, s, t, rfl, rfl, -, one, more⟩ | ⟨pauses, pauses'⟩
  · by_cases same : d = c
    · subst same
      exact .inl ⟨s, t, rfl, rfl, one, more⟩
    · have apart : some d ≠ some c := fun first => same (Option.some.inj first)
      exact .inr ⟨apart, apart⟩
  · exact .inr ⟨Lexeme.head?_ne_of_pauses pauses visible, Lexeme.head?_ne_of_pauses pauses' visible⟩

theorem Reflow.any_head?_eq {f : Char → Bool} (stops : ∀ c, isWhite c = true → f c = false)
    (reflow : Reflow p s t q) : s.head?.any f = t.head?.any f := by
  rcases reflow.cases_head with ⟨d, s, t, rfl, rfl, -, -, -⟩ | ⟨pauses, pauses'⟩
  · rfl
  · exact (Lexeme.any_head?_append stops [] pauses).trans
      (Lexeme.any_head?_append stops [] pauses').symm

/-- A scan that passes the characters of a run one by one. -/
theorem map_append_run {f : Char → Bool} {g : Text} (scan : Text → Option Nat)
    (passes : ∀ c, f c = true → ∀ t, scan (c :: t) = (scan t).map (· + 1))
    (run : ∀ c ∈ g, f c = true) (t : Text) : scan (g ++ t) = (scan t).map (· + g.length) := by
  induction g with
  | nil => exact Option.map_id'.symm
  | cons c g ih =>
      obtain ⟨first, rest⟩ := List.forall_mem_cons.1 run
      rw [List.cons_append, passes c first, ih rest, Option.map_map]
      rfl

section
variable {g h : Text} {scan : Text → Option Nat}

theorem IsRun.length_lt {f : Char → Bool} (run : IsRun f g) (t : Text) :
    t.length < (g ++ t).length := by
  rw [List.length_append]
  exact Nat.lt_add_of_pos_left (List.length_pos_iff.2 run.1)

/-- A scan that passes spacing goes on behind a gap. -/
theorem Agree.afterGap (passes : ∀ c, isSpacing c = true → ∀ t, scan (c :: t) = (scan t).map (· + 1))
    (left : IsRun isSpacing g) (right : IsRun isSpacing h) (unescaped : p.last ≠ '\\')
    (token : p.folded = false) (agree : Agree p.spaced q s t P (scan s) (scan t)) :
    Agree p q (g ++ s) (h ++ t) P (scan (g ++ s)) (scan (h ++ t)) := by
  rw [map_append_run scan passes left.2, map_append_run scan passes right.2]
  exact agree.after (.onlyGap left right unescaped token)

/-- A scan that passes white space goes on behind a line end added or taken away. -/
theorem Agree.afterFold (passes : ∀ c, isWhite c = true → ∀ t, scan (c :: t) = (scan t).map (· + 1))
    (left : IsRun isWhite g) (right : IsRun isWhite h) (ends : p.isOpen = true)
    (agree : Agree .afterFold q s t P (scan s) (scan t)) :
    Agree p q (g ++ s) (h ++ t) P (scan (g ++ s)) (scan (h ++ t)) := by
  rw [map_append_run scan passes left.2, map_append_run scan passes right.2]
  exact agree.after (.onlyFold left right ends)

end

open Layout
open Reflow (Pauses)

namespace Lexeme

section
variable {quote : Char}

theorem quotedRest_escape (c : Char) (t : Text) :
    quotedRest quote ('\\' :: c :: t) = ((quotedRest quote t).map (· + 1)).map (· + 1) := by
  rw [quotedRest, if_pos rfl, Option.map_map]
  rfl

theorem quotedRest_quote (plain : quote ≠ '\\') (t : Text) :
    quotedRest quote (quote :: t) = some 1 := by
  rw [quotedRest.eq_def]
  simp only [if_neg plain, if_true]

theorem quotedRest_lineEnd (plain : c ≠ '\\') (other : c ≠ quote) (ends : c = '\n' ∨ c = '\r')
    (t : Text) : quotedRest quote (c :: t) = none := by
  rw [quotedRest.eq_def]
  rcases ends with rfl | rfl <;> simp only [if_neg plain, if_neg other] <;> rfl

theorem quotedRest_cons (plain : c ≠ '\\') (other : c ≠ quote) (more : ¬ (c = '\n' ∨ c = '\r'))
    (t : Text) : quotedRest quote (c :: t) = (quotedRest quote t).map (· + 1) := by
  rw [quotedRest.eq_def]
  simp only [if_neg plain, if_neg other, mt Or.inl more, mt Or.inr more, decide_false, Bool.or_self,
    Bool.false_eq_true, if_false]

theorem quotedRest_spacing (sign : isWhite quote = false ∧ quote ≠ '\\')
    (spacing : isSpacing c = true) (t : Text) :
    quotedRest quote (c :: t) = (quotedRest quote t).map (· + 1) := by
  have other {d : Char} (visible : isSpacing d = false) : c ≠ d := fun same => by
    rw [← same, spacing] at visible
    cases visible
  have close : c ≠ quote := fun same => by
    rw [← same, isWhite_of_isSpacing spacing] at sign
    cases sign.1
  exact quotedRest_cons (other rfl) close (not_or.2 ⟨other rfl, other rfl⟩) t

theorem agree_quotedRest (sign : isWhite quote = false ∧ quote ≠ '\\') (reflow : Reflow p s t q)
    (bound : p.free = false) :
    Agree p q s t (·.free = false) (quotedRest quote s) (quotedRest quote t) := by
  generalize length : s.length = n
  induction n using Nat.strongRecOn generalizing p s t with
  | ind n ih =>
    subst length
    cases reflow with
    | nil => exact .none
    | @same _ _ c s t token more =>
        have one : Reflow p [c] [c] (p.next c) := .same token .nil
        by_cases escape : c = '\\'
        · subst escape
          have bound' := bound_next bound (c := '\\') (.inl (by decide))
          rcases more.cases_escaped rfl with ⟨rfl, rfl⟩ | ⟨d, s, t, rfl, rfl, two, more⟩
          · exact .none
          · have rest := ih s.length (by simp only [List.length_cons]; omega) more
              (bound_next bound' (.inr rfl)) rfl
            rw [quotedRest_escape, quotedRest_escape]
            exact (rest.cons two).cons one
        by_cases close : c = quote
        · subst close
          rw [quotedRest_quote escape, quotedRest_quote escape]
          have inside : c ≠ '\n' := fun lineFeed => by
            rw [lineFeed] at sign
            exact absurd sign.1 (by decide)
          exact .some ((Cut.here more).after one) (bound_next bound (.inl inside))
        by_cases ends : c = '\n' ∨ c = '\r'
        · rw [quotedRest_lineEnd escape close ends, quotedRest_lineEnd escape close ends]
          exact .none
        · rw [quotedRest_cons escape close ends, quotedRest_cons escape close ends]
          exact (ih s.length (Nat.lt_succ_self _) more
            (bound_next bound (.inl (mt Or.inl ends))) rfl).cons one
    | @gap _ _ g h s t left right unescaped token more =>
        refine .afterGap (fun c => quotedRest_spacing sign) left right unescaped token ?_
        exact ih s.length (left.length_lt s) more bound rfl
    | fold _ _ ends => exact absurd ends (Bool.eq_false_iff.1 (isOpen_of_bound bound))

end

/-- A quotation mark with which a string begins. -/
def opensString (c : Char) : Bool := c == '"' || c.toNat == 39

theorem string_cons (c : Char) (t : Text) : string (c :: t) =
    if opensString c then ((quotedRest c t).map (· + 1)).getD 0 else 0 := by
  rw [string]
  simp only [opensString, Bool.or_eq_true, beq_iff_eq, decide_eq_true_eq]

/-- A character that opens something is bound to the line. -/
theorem opensString_spec (opens : opensString c = true) :
    isWhite c = false ∧ c ≠ '\\' ∧ ∀ before, beginsLineBound before c = true := by
  refine ⟨?_, ?_, fun before => ?_⟩
  · refine Bool.eq_false_iff.2 fun white => absurd opens (Bool.eq_false_iff.1 ?_)
    exact eq_false_of_isWhite (f := opensString) rfl rfl rfl rfl c white
  · rintro rfl
    exact absurd opens (by decide)
  · rw [beginsLineBound, Bool.or_assoc, Bool.or_assoc, ← Bool.or_assoc]
    exact Bool.or_eq_true_iff.2 (.inl opens)

theorem string_pauses (pauses : Pauses t) : string t = 0 := by
  cases t with
  | nil => rfl
  | cons c t =>
      have other : opensString c = false :=
        eq_false_of_isWhite (f := opensString) rfl rfl rfl rfl c (pauses c rfl)
      rw [string_cons, other]
      rfl

theorem agree_string (reflow : Reflow p s t q) :
    CutsAlike p q s t (·.free = false) (string s) (string t) := by
  rcases reflow.cases_head with ⟨c, s, t, rfl, rfl, visible, one, more⟩ | ⟨pauses, pauses'⟩
  · rw [string_cons, string_cons]
    split
    · next opens =>
        obtain ⟨-, plain, bound⟩ := opensString_spec opens
        have inside : c ≠ '\n' := fun lineFeed => by
          rw [lineFeed] at visible
          cases visible
        exact ((agree_quotedRest ⟨visible, plain⟩ more
          (bound_of_begins (bound p.last) inside)).cons one).cutsAlike
    · exact .inl ⟨rfl, rfl⟩
  · exact .inl ⟨string_pauses pauses, string_pauses pauses'⟩

section
variable {inside outer : List Nesting}

theorem templateRest_succ (some : inside ≠ []) (k : Nat) (c : Char) (t : Text) :
    templateRest (k + 1) inside (c :: t) = (templateRest k inside t).map (· + 1) := by
  cases inside with
  | nil => exact absurd rfl some
  | cons n outer => rw [templateRest]; exact some

theorem templateRest_skip {k : Nat} (some : inside ≠ [] ∨ k = 0) (t : Text) (le : k ≤ t.length) :
    templateRest k inside t = (templateRest 0 inside (t.drop k)).map (· + k) := by
  induction k generalizing t with
  | zero => exact Option.map_id'.symm
  | succ k ih =>
      have some := some.resolve_right (Nat.succ_ne_zero k)
      cases t with
      | nil => cases le
      | cons c t =>
          rw [templateRest_succ some, ih (.inl some) t (Nat.le_of_succ_le_succ le), Option.map_map]
          rfl

theorem templateRest_nil (some : inside ≠ []) (k : Nat) : templateRest k inside [] = none := by
  cases inside with
  | nil => exact absurd rfl some
  | cons n outer => cases k <;> rfl

theorem templateRest_template (outer : List Nesting) (c : Char) (t : Text) :
    templateRest 0 (.template :: outer) (c :: t) =
      if c.toNat = 0x60 then (templateRest 0 outer t).map (· + 1)
      else if c = '\\' then (templateRest 1 (.template :: outer) t).map (· + 1)
      else if c = '$' && t.head? == some '{' then
        (templateRest 1 (.braces :: .template :: outer) t).map (· + 1)
      else (templateRest 0 (.template :: outer) t).map (· + 1) := by
  rw [templateRest]

theorem templateRest_braces (outer : List Nesting) (c : Char) (t : Text) :
    templateRest 0 (.braces :: outer) (c :: t) =
      if c = '}' then (templateRest 0 outer t).map (· + 1)
      else if c = '{' then (templateRest 0 (.braces :: .braces :: outer) t).map (· + 1)
      else if c.toNat = 0x60 then (templateRest 0 (.template :: .braces :: outer) t).map (· + 1)
      else (templateRest (string (c :: t) - 1) (.braces :: outer) t).map (· + 1) := by
  rw [templateRest]

/-- White space is passed in every part of a template. -/
theorem templateRest_white (some : inside ≠ []) (white : isWhite c = true) (t : Text) :
    templateRest 0 inside (c :: t) = (templateRest 0 inside t).map (· + 1) := by
  have other {d : Char} (visible : isWhite d = false) : c ≠ d := fun same => by
    rw [← same, white] at visible
    cases visible
  have back : c.toNat ≠ 0x60 := fun same =>
    other (d := Char.ofNat 0x60) (by decide) (by rw [← same, Char.ofNat_toNat])
  cases inside with
  | nil => exact absurd rfl some
  | cons n outer =>
      cases n with
      | template =>
          rw [templateRest_template, if_neg back, if_neg (other (by decide)), if_neg]
          rw [decide_eq_false (other (by decide))]
          exact Bool.false_ne_true
      | braces =>
          have none : string (c :: t) = 0 := string_pauses fun d first => by
            cases first
            exact white
          rw [templateRest_braces, if_neg (other (by decide)), if_neg (other (by decide)),
            if_neg back, none]

theorem closing_of_toNat {n : Nat} (code : c.toNat = n) (other : n ≠ 0x3B ∧ n ≠ 0x7B) :
    Closing c := by
  constructor
  · rintro rfl
    exact other.1 code.symm
  · rintro rfl
    exact other.2 code.symm

/-- Templates go on alike in any two texts of which the first is no longer than a given one. -/
def TemplatesAgree (q : Layout) (s : Text) : Prop :=
  ∀ {inside : List Nesting} {p : Layout} {u v : Text}, u.length ≤ s.length → Reflow p u v q →
    (inside = [] → Closing p.last) → Agree p q u v (fun r => Closing r.last)
      (templateRest 0 inside u) (templateRest 0 inside v)

/-- Behind one more character and what is passed with it, a template goes on inside of something. -/
theorem TemplatesAgree.goOn (rest : TemplatesAgree q s) (one : Reflow p [c] [c] (p.next c))
    {j k : Nat} (cut : Cut (p.next c) s t j k r q) (some : inside ≠ [] ∨ j = 0 ∧ k = 0)
    (ended : inside = [] → Closing r.last) :
    Agree p q (c :: s) (c :: t) (fun r => Closing r.last) ((templateRest j inside s).map (· + 1))
      ((templateRest k inside t).map (· + 1)) := by
  rw [templateRest_skip (some.imp_right And.left) s cut.le,
    templateRest_skip (some.imp_right And.right) t cut.le']
  have shorter : (s.drop j).length ≤ s.length := by
    rw [List.length_drop]
    exact Nat.sub_le _ _
  exact (Agree.afterCut cut (rest shorter cut.back ended)).cons one

theorem TemplatesAgree.stay (rest : TemplatesAgree q s) (one : Reflow p [c] [c] (p.next c))
    {j k : Nat} (cut : Cut (p.next c) s t j k r q) (some : inside ≠ []) :
    Agree p q (c :: s) (c :: t) (fun r => Closing r.last) ((templateRest j inside s).map (· + 1))
      ((templateRest k inside t).map (· + 1)) :=
  rest.goOn one cut (.inl some) fun done => absurd done some

theorem TemplatesAgree.template (rest : TemplatesAgree q s) (one : Reflow p [c] [c] (p.next c))
    (more : Reflow (p.next c) s t q) : Agree p q (c :: s) (c :: t) (fun r => Closing r.last)
      (templateRest 0 (.template :: outer) (c :: s)) (templateRest 0 (.template :: outer) (c :: t)) := by
  have within : Nesting.template :: outer ≠ [] := List.cons_ne_nil _ _
  rw [templateRest_template, templateRest_template]
  by_cases close : c.toNat = 0x60
  · rw [if_pos close, if_pos close]
    exact rest.goOn one (.here more) (.inr ⟨rfl, rfl⟩) fun _ => closing_of_toNat close (by decide)
  rw [if_neg close, if_neg close]
  by_cases escape : c = '\\'
  · rw [if_pos escape, if_pos escape]
    rcases more.cases_escaped escape with ⟨rfl, rfl⟩ | ⟨d, s, t, rfl, rfl, two, more⟩
    · rw [templateRest_nil within]
      exact .none
    · exact rest.stay one ((Cut.here more).after two) within
  rw [if_neg escape, if_neg escape]
  rcases more.cases_visible (c := '{') (by decide) with
    ⟨s', t', rfl, rfl, two, further⟩ | ⟨other, other'⟩
  · rw [List.head?_cons, List.head?_cons]
    split
    · exact rest.stay one ((Cut.here further).after two) (List.cons_ne_nil _ _)
    · exact rest.stay one (.here more) within
  · rw [beq_eq_false_iff_ne.2 other, beq_eq_false_iff_ne.2 other', Bool.and_false,
      if_neg Bool.false_ne_true, if_neg Bool.false_ne_true]
    exact rest.stay one (.here more) within

theorem TemplatesAgree.braces (rest : TemplatesAgree q s) (one : Reflow p [c] [c] (p.next c))
    (whole : Reflow p (c :: s) (c :: t) q) (more : Reflow (p.next c) s t q) :
    Agree p q (c :: s) (c :: t) (fun r => Closing r.last)
      (templateRest 0 (.braces :: outer) (c :: s)) (templateRest 0 (.braces :: outer) (c :: t)) := by
  have within : Nesting.braces :: outer ≠ [] := List.cons_ne_nil _ _
  rw [templateRest_braces, templateRest_braces]
  by_cases close : c = '}'
  · rw [if_pos close, if_pos close]
    subst close
    exact rest.goOn one (.here more) (.inr ⟨rfl, rfl⟩) fun _ => (by decide : Closing '}')
  rw [if_neg close, if_neg close]
  by_cases brace : c = '{'
  · rw [if_pos brace, if_pos brace]
    exact rest.stay one (.here more) (List.cons_ne_nil _ _)
  rw [if_neg brace, if_neg brace]
  by_cases back : c.toNat = 0x60
  · rw [if_pos back, if_pos back]
    exact rest.stay one (.here more) (List.cons_ne_nil _ _)
  rw [if_neg back, if_neg back]
  -- A string within the braces is passed as a whole: its own braces are not counted.
  rcases agree_string whole with ⟨absent, absent'⟩ | ⟨some, some', r, cut, -⟩
  · rw [absent, absent']
    exact rest.stay one (.here more) within
  · have visible : isWhite c = false := Bool.eq_false_iff.2 fun white =>
      some (string_pauses fun d first => by cases first; exact white)
    obtain ⟨j, length⟩ := Nat.exists_eq_succ_of_ne_zero some
    obtain ⟨k, length'⟩ := Nat.exists_eq_succ_of_ne_zero some'
    rw [length, length'] at cut ⊢
    exact rest.stay one (cut.tail visible) within

theorem agree_templateRest (reflow : Reflow p s t q) (ended : inside = [] → Closing p.last) :
    Agree p q s t (fun r => Closing r.last) (templateRest 0 inside s)
      (templateRest 0 inside t) := by
  -- On the length, since an escape or a string within braces is passed in one step.
  generalize length : s.length = n
  induction n using Nat.strongRecOn generalizing p s t inside with
  | ind n ih =>
    subst length
    by_cases none : inside = []
    · subst none
      have done (t : Text) : templateRest 0 [] t = some 0 := by cases t <;> rfl
      rw [done, done]
      exact .some (.here reflow) (ended rfl)
    have stays (c : Char) (white : isWhite c = true) := templateRest_white none white
    cases reflow with
    | nil =>
        rw [templateRest_nil none]
        exact .none
    | @same _ _ c s t token more =>
        have rest : TemplatesAgree q s := fun shorter reflow ended =>
          ih _ (Nat.lt_succ_of_le shorter) reflow ended rfl
        obtain ⟨kind, outer, rfl⟩ := List.exists_cons_of_ne_nil none
        cases kind with
        | template => exact rest.template (.same token .nil) more
        | braces => exact rest.braces (.same token .nil) (.same token more) more
    | @gap _ _ g h s t left right unescaped token more =>
        have spacing (c : Char) (fits : isSpacing c = true) := stays c (isWhite_of_isSpacing fits)
        refine .afterGap spacing left right unescaped token ?_
        exact ih s.length (left.length_lt s) more (fun done => absurd done none) rfl
    | @fold _ _ g h s t left right ends more =>
        refine .afterFold stays left right ends ?_
        exact ih s.length (left.length_lt s) more (fun done => absurd done none) rfl

end

theorem template_cons (c : Char) (t : Text) : template (c :: t) =
    if c.toNat = 0x60 then ((templateRest 0 [.template] t).map (· + 1)).getD 0 else 0 := rfl

theorem template_pauses (pauses : Pauses t) : template t = 0 := by
  cases t with
  | nil => rfl
  | cons c t =>
      rw [template_cons, if_neg]
      intro code
      have white := pauses c rfl
      rw [← Char.ofNat_toNat c, code] at white
      cases white

theorem agree_template (reflow : Reflow p s t q) :
    CutsAlike p q s t (fun r => Closing r.last) (template s) (template t) := by
  rcases reflow.cases_head with ⟨c, s, t, rfl, rfl, -, one, more⟩ | ⟨pauses, pauses'⟩
  · rw [template_cons, template_cons]
    split
    · have rest : Agree (p.next c) q s t (fun r => Closing r.last) (templateRest 0 [.template] s)
          (templateRest 0 [.template] t) := agree_templateRest more nofun
      exact (rest.cons one).cutsAlike
    · exact .inl ⟨rfl, rfl⟩
  · exact .inl ⟨template_pauses pauses, template_pauses pauses'⟩

section
variable {inClass : Bool}

theorem regexRest_escape (c : Char) (t : Text) :
    regexRest inClass ('\\' :: c :: t) = ((regexRest inClass t).map (· + 1)).map (· + 1) := by
  rw [regexRest, if_neg (by decide), if_pos rfl, Option.map_map]
  rfl

theorem regexRest_lineFeed (t : Text) : regexRest inClass ('\n' :: t) = none := by
  rw [regexRest.eq_def]
  exact if_pos rfl

theorem regexRest_cons (lineFeed : c ≠ '\n') (escape : c ≠ '\\') (t : Text) :
    regexRest inClass (c :: t) =
      if c = '/' && !inClass then some (1 + (t.takeWhile Char.isAlpha).length)
      else (regexRest (if c = '[' then true else if c = ']' then false else inClass) t).map
        (· + 1) := by
  rw [regexRest.eq_def]
  dsimp only
  rw [if_neg lineFeed, if_neg escape]
  by_cases opens : c = '['
  · subst opens
    rfl
  by_cases closes : c = ']'
  · subst closes
    rfl
  rw [if_neg opens, if_neg closes, if_neg opens, if_neg closes]

theorem regexRest_spacing (spacing : isSpacing c = true) (t : Text) :
    regexRest inClass (c :: t) = (regexRest inClass t).map (· + 1) := by
  have other {d : Char} (visible : isSpacing d = false) : c ≠ d := fun same => by
    rw [← same, spacing] at visible
    cases visible
  rw [regexRest_cons (other rfl) (other rfl), if_neg (other rfl), if_neg (other rfl), if_neg]
  rw [decide_eq_false (other rfl)]
  exact Bool.false_ne_true

theorem agree_regexRest (reflow : Reflow p s t q) (bound : p.free = false) :
    Agree p q s t (·.free = false) (regexRest inClass s) (regexRest inClass t) := by
  generalize length : s.length = n
  induction n using Nat.strongRecOn generalizing p s t inClass with
  | ind n ih =>
    subst length
    cases reflow with
    | nil => exact .none
    | @same _ _ c s t token more =>
        have one : Reflow p [c] [c] (p.next c) := .same token .nil
        by_cases lineFeed : c = '\n'
        · subst lineFeed
          rw [regexRest_lineFeed, regexRest_lineFeed]
          exact .none
        have bound' := bound_next bound (c := c) (.inl lineFeed)
        by_cases escape : c = '\\'
        · subst escape
          rcases more.cases_escaped rfl with ⟨rfl, rfl⟩ | ⟨d, s, t, rfl, rfl, two, more⟩
          · exact .none
          · have rest : Agree _ q s t (·.free = false) (regexRest inClass s) (regexRest inClass t) :=
              ih s.length (by simp only [List.length_cons]; omega) more
                (bound_next bound' (.inr rfl)) rfl
            rw [regexRest_escape, regexRest_escape]
            exact (rest.cons two).cons one
        rw [regexRest_cons lineFeed escape, regexRest_cons lineFeed escape]
        split
        · obtain ⟨r, still, cut⟩ := cut_takeWhile_bound (f := Char.isAlpha) (b := false) (by decide)
            (fun c spacing => eq_false_of_isWhite (f := Char.isAlpha) (by decide) (by decide)
              (by decide) (by decide) c (isWhite_of_isSpacing spacing)) more bound'
          rw [Nat.add_comm, Nat.add_comm 1]
          exact .some (cut.after one) still
        · exact (ih s.length (Nat.lt_succ_self _) more bound' rfl).cons one
    | @gap _ _ g h s t left right unescaped token more =>
        refine .afterGap (fun c => regexRest_spacing) left right unescaped token ?_
        exact ih s.length (left.length_lt s) more bound rfl
    | fold _ _ ends => exact absurd ends (Bool.eq_false_iff.1 (isOpen_of_bound bound))

end

theorem regex_cons (t : Text) : regex ('/' :: t) =
    if t.head?.any fun c => c == '*' || c == '/' then 0
    else ((regexRest false t).map (· + 1)).getD 0 := by
  cases t with
  | nil => rfl
  | cons c t =>
      rw [regex]
      simp only [List.head?_cons, Option.any_some, Bool.or_eq_true, beq_iff_eq, decide_eq_true_eq]

theorem regex_of_ne (other : t.head? ≠ some '/') : regex t = 0 := by
  unfold regex
  split
  · exact absurd rfl other
  · rfl

theorem agree_regex (reflow : Reflow p s t q) :
    CutsAlike p q s t (·.free = false) (regex s) (regex t) := by
  rcases reflow.cases_visible (c := '/') (by decide) with
    ⟨s, t, rfl, rfl, one, more⟩ | ⟨other, other'⟩
  · have comment := eq_false_of_isWhite (f := fun c => c == '*' || c == '/') rfl rfl rfl rfl
    rw [regex_cons, regex_cons, more.any_head?_eq comment]
    split
    · exact .inl ⟨rfl, rfl⟩
    · exact ((agree_regexRest more (bound_of_begins rfl (by decide))).cons one).cutsAlike
  · rw [regex_of_ne other, regex_of_ne other']
    exact .inl ⟨rfl, rfl⟩

theorem blockCommentRest_end (t : Text) : blockCommentRest ('*' :: '/' :: t) = some 2 := rfl

theorem blockCommentRest_cons (other : ¬ (c = '*' ∧ t.head? = some '/')) :
    blockCommentRest (c :: t) = (blockCommentRest t).map (· + 1) := by
  rw [blockCommentRest.eq_def]
  split
  · next same =>
      cases same
      exact absurd ⟨rfl, rfl⟩ other
  · next same =>
      cases same
      rfl
  · next none => cases none

theorem blockCommentRest_white (white : isWhite c = true) (t : Text) :
    blockCommentRest (c :: t) = (blockCommentRest t).map (· + 1) := by
  refine blockCommentRest_cons fun both => ?_
  rw [both.1] at white
  cases white

theorem agree_blockCommentRest (reflow : Reflow p s t q) :
    Agree p q s t (·.free = false) (blockCommentRest s) (blockCommentRest t) := by
  induction reflow with
  | nil => exact .none
  | @same p q c s t token more ih =>
      have one : Reflow p [c] [c] (p.next c) := .same token .nil
      rcases more.cases_visible (c := '/') (by decide) with
        ⟨s', t', rfl, rfl, two, further⟩ | ⟨other, other'⟩
      · by_cases star : c = '*'
        · subst star
          rw [blockCommentRest_end, blockCommentRest_end]
          exact .some (((Cut.here further).after two).after one) (bound_of_begins rfl (by decide))
        · rw [blockCommentRest_cons (fun both => star both.1),
            blockCommentRest_cons (fun both => star both.1)]
          exact ih.cons one
      · rw [blockCommentRest_cons (fun both => other both.2),
          blockCommentRest_cons (fun both => other' both.2)]
        exact ih.cons one
  | gap left right unescaped token _ ih =>
      have passes (c : Char) (spacing : isSpacing c = true) :=
        blockCommentRest_white (isWhite_of_isSpacing spacing)
      exact .afterGap passes left right unescaped token ih
  | fold left right ends _ ih =>
      exact .afterFold (fun _ => blockCommentRest_white) left right ends ih

/-- What a comment is at its second character. -/
def commentRest (t : Text) : Option Nat :=
  match t with
  | '/' :: rest => some (1 + (rest.takeWhile fun c => !isLineEnd c).length)
  | '*' :: rest => (blockCommentRest rest).map (· + 1)
  | _ => none

theorem commentRest_of_ne (slash : t.head? ≠ some '/') (star : t.head? ≠ some '*') :
    commentRest t = none := by
  unfold commentRest
  split
  · exact absurd rfl slash
  · exact absurd rfl star
  · rfl

theorem comment_cons (t : Text) : comment ('/' :: t) = ((commentRest t).map (· + 1)).getD 0 := by
  unfold commentRest
  split
  · next rest =>
      change 2 + _ = 1 + _ + 1
      omega
  · next rest =>
      rw [Option.map_map]
      rfl
  · next slash star =>
      unfold comment
      split
      · next same => cases same; exact absurd rfl (slash _)
      · next same => cases same; exact absurd rfl (star _)
      · rfl

theorem comment_of_ne (other : t.head? ≠ some '/') : comment t = 0 := by
  unfold comment
  split
  · exact absurd rfl other
  · exact absurd rfl other
  · rfl

theorem agree_commentRest (reflow : Reflow p s t q) (bound : p.free = false) :
    Agree p q s t (·.free = false) (commentRest s) (commentRest t) := by
  rcases reflow.cases_visible (c := '/') (by decide) with
    ⟨s, t, rfl, rfl, one, more⟩ | ⟨slash, slash'⟩
  · have spacing (c : Char) (fits : isSpacing c = true) : (!isLineEnd c) = true :=
      isSpacing_cases (P := fun c => (!isLineEnd c) = true) (by decide) (by decide) fits
    obtain ⟨r, still, cut⟩ := cut_takeWhile_bound (by decide) spacing more
      (bound_next bound (.inl (by decide)))
    change Agree p q _ _ _ (some (1 + _)) (some (1 + _))
    rw [Nat.add_comm, Nat.add_comm 1]
    exact .some (cut.after one) still
  · rcases reflow.cases_visible (c := '*') (by decide) with
      ⟨s, t, rfl, rfl, one, more⟩ | ⟨star, star'⟩
    · exact (agree_blockCommentRest more).cons one
    · rw [commentRest_of_ne slash star, commentRest_of_ne slash' star']
      exact .none

theorem agree_comment (reflow : Reflow p s t q) :
    CutsAlike p q s t (·.free = false) (comment s) (comment t) := by
  rcases reflow.cases_visible (c := '/') (by decide) with
    ⟨s, t, rfl, rfl, one, more⟩ | ⟨other, other'⟩
  · rw [comment_cons, comment_cons]
    exact ((agree_commentRest more (bound_of_begins rfl (by decide))).cons one).cutsAlike
  · rw [comment_of_ne other, comment_of_ne other']
    exact .inl ⟨rfl, rfl⟩

theorem hashBang_of_ne (other : t.head? ≠ some '#') : hashBang t = 0 := by
  unfold hashBang
  split
  · exact absurd rfl other
  · rfl

theorem hashBang_cons_of_ne (other : t.head? ≠ some '!') : hashBang ('#' :: t) = 0 := by
  unfold hashBang
  split
  · next same => cases same; exact absurd rfl other
  · rfl

theorem agree_hashBang (reflow : Reflow p s t q) :
    CutsAlike p q s t (·.free = false) (hashBang s) (hashBang t) := by
  rcases reflow.cases_visible (c := '#') (by decide) with
    ⟨s, t, rfl, rfl, one, more⟩ | ⟨other, other'⟩
  · rcases more.cases_visible (c := '!') (by decide) with
      ⟨s, t, rfl, rfl, two, more⟩ | ⟨other, other'⟩
    · have spacing (c : Char) (fits : isSpacing c = true) : (c != '\n') = true :=
        isSpacing_cases (P := fun c => (c != '\n') = true) (by decide) (by decide) fits
      obtain ⟨r, still, cut⟩ := cut_takeWhile_bound (by decide) spacing more
        (bound_of_begins rfl (by decide))
      change CutsAlike p q _ _ _ (2 + _) (2 + _)
      rw [Nat.add_comm 2, Nat.add_comm 2]
      exact .inr ⟨Nat.succ_ne_zero _, Nat.succ_ne_zero _, r, (cut.after two).after one, still⟩
    · rw [hashBang_cons_of_ne other, hashBang_cons_of_ne other']
      exact .inl ⟨rfl, rfl⟩
  · rw [hashBang_of_ne other, hashBang_of_ne other']
    exact .inl ⟨rfl, rfl⟩

theorem agree_elementText (reflow : Reflow p s t q) :
    CutsAlike p q s t (fun _ => True) (elementText s) (elementText t) := by
  have white (c : Char) : isWhite c = true →
      (c != '<' && c != '>' && c != '{' && c != '}') = true :=
    isWhite_cases (P := fun c => (c != '<' && c != '>' && c != '{' && c != '}') = true) (by decide)
      (by decide) (by decide) (by decide)
  obtain ⟨r, front, back⟩ := reflow.span_white white
  have ends := front.eq_nil_iff
  rw [← List.length_eq_zero_iff, ← List.length_eq_zero_iff] at ends
  by_cases none : elementText s = 0
  · exact .inl ⟨none, ends.1 none⟩
  · exact .inr ⟨none, mt ends.2 none, r, .of_span front back, trivial⟩

end Lexeme
end ApiReference.Syntax
