import ApiReference.Proofs.Text.Trimming
import ApiReference.Proofs.Text.Words

/-!
# How wide the gaps of a text are

A text with one space in place of every run of white space. Texts that become the same in this way
differ only in how wide their gaps are: they have the same words, and trimming them leaves texts of
which that is true again. Main statements: `collapse_squeeze`, `squeeze_trimOf`,
`Respaced.append`.
-/

namespace ApiReference.Text
variable {c : Char} {s t u v : Text} {f : Char → Bool}

theorem isBlank_space : isBlank ' ' = true := rfl

/-- Puts a character before a text in which every run of white space is one space. -/
def putSpaced (c : Char) (t : Text) : Text :=
  if isBlank c then if t.head? = some ' ' then t else ' ' :: t else c :: t

/-- A text with one space for every run of white space, also at its ends. -/
def squeeze (t : Text) : Text := t.foldr putSpaced []

/-- Texts that differ only in how wide their gaps are. -/
def Respaced (s t : Text) : Prop := squeeze t = squeeze s

instance (s t : Text) : Decidable (Respaced s t) := inferInstanceAs (Decidable (_ = _))

theorem squeeze_cons (c : Char) (t : Text) : squeeze (c :: t) = putSpaced c (squeeze t) :=
  List.foldr_cons

theorem putSpaced_of_visible (visible : isBlank c = false) (t : Text) : putSpaced c t = c :: t :=
  if_neg (Bool.eq_false_iff.1 visible)

theorem putSpaced_of_blank (blank : isBlank c = true) (t : Text) :
    putSpaced c t = putSpaced ' ' t := by
  rw [putSpaced, if_pos blank]
  rfl

theorem head?_putSpaced_of_blank (blank : isBlank c = true) (t : Text) :
    (putSpaced c t).head? = some ' ' := by
  rw [putSpaced, if_pos blank]
  split
  · assumption
  · rfl

theorem putSpaced_putSpaced (blank : isBlank c = true) (t : Text) :
    putSpaced c (putSpaced ' ' t) = putSpaced ' ' t := by
  have first := head?_putSpaced_of_blank isBlank_space t
  rw [putSpaced, if_pos blank, if_pos first]

theorem putSpaced_ne_nil (c : Char) (t : Text) : putSpaced c t ≠ [] := by
  cases blank : isBlank c with
  | true =>
      have first := head?_putSpaced_of_blank blank t
      intro none
      rw [none] at first
      cases first
  | false =>
      rw [putSpaced_of_visible blank]
      exact List.cons_ne_nil c t

theorem squeeze_eq_nil_iff : squeeze t = [] ↔ t = [] := by
  cases t with
  | nil => exact Iff.rfl
  | cons c t => exact iff_of_false (putSpaced_ne_nil c _) (List.cons_ne_nil c t)

/-- Before more text it does not matter whether the gaps have been narrowed already. -/
theorem squeeze_squeeze_append (s t : Text) : squeeze (squeeze s ++ t) = squeeze (s ++ t) := by
  induction s with
  | nil => rfl
  | cons c s ih =>
      cases blank : isBlank c with
      | false =>
          rw [squeeze_cons, putSpaced_of_visible blank, List.cons_append, List.cons_append,
            squeeze_cons, squeeze_cons, ih]
      | true =>
          rw [squeeze_cons, List.cons_append, squeeze_cons, ← ih, putSpaced, if_pos blank]
          split
          · next first =>
              obtain ⟨rest, narrow⟩ := List.head?_eq_some_iff.1 first
              rw [narrow, List.cons_append, squeeze_cons, putSpaced_putSpaced blank]
          · rw [List.cons_append, squeeze_cons, putSpaced_of_blank blank]

theorem squeeze_squeeze (t : Text) : squeeze (squeeze t) = squeeze t := by
  have narrow := squeeze_squeeze_append t []
  rwa [List.append_nil, List.append_nil] at narrow

theorem squeeze_append_congr (s : Text) (same : squeeze t = squeeze u) :
    squeeze (s ++ t) = squeeze (s ++ u) := by
  rw [squeeze, squeeze, List.foldr_append, List.foldr_append]
  exact congrArg (List.foldr putSpaced · s) same

/-- A run of white space is one space. -/
theorem squeeze_run_append (some : s ≠ []) (blanks : ∀ c ∈ s, isBlank c = true) (t : Text) :
    squeeze (s ++ t) = putSpaced ' ' (squeeze t) := by
  induction s with
  | nil => exact absurd rfl some
  | cons c s ih =>
      obtain ⟨blank, rest⟩ := List.forall_mem_cons.1 blanks
      rw [List.cons_append, squeeze_cons, putSpaced_of_blank blank]
      cases s with
      | nil => rfl
      | cons d s => rw [ih (List.cons_ne_nil d s) rest, putSpaced_putSpaced isBlank_space]

theorem words_append_squeeze (w t : Text) : words (w ++ squeeze t) = words (w ++ t) := by
  induction t generalizing w with
  | nil => rfl
  | cons c t ih =>
      cases blank : isBlank c with
      | false =>
          have next := ih (w ++ [c])
          rw [squeeze_cons, putSpaced_of_visible blank]
          rwa [List.append_assoc, List.append_assoc] at next
      | true =>
          have whole : words (squeeze t) = words t := ih []
          rw [squeeze_cons, putSpaced, if_pos blank, words_append_cons blank, ← whole]
          split
          · next first =>
              obtain ⟨rest, narrow⟩ := List.head?_eq_some_iff.1 first
              have space : words (' ' :: rest) = words [] ++ words rest :=
                words_append_cons isBlank_space [] rest
              rw [narrow, words_append_cons isBlank_space, space]
              rfl
          · rw [words_append_cons isBlank_space]

theorem collapse_squeeze (t : Text) : collapse (squeeze t) = collapse t :=
  congrArg (join [' ']) (words_append_squeeze [] t)

theorem squeeze_trimStart (t : Text) : squeeze (trimStart t) = trimStart (squeeze t) := by
  induction t with
  | nil => rfl
  | cons c t ih =>
      cases blank : isBlank c with
      | false =>
          have visible := Bool.eq_false_iff.1 blank
          rw [squeeze_cons, putSpaced_of_visible blank, trimStart, trimStart, trimStartOf,
            trimStartOf, List.dropWhile_cons_of_neg visible, List.dropWhile_cons_of_neg visible,
            squeeze_cons, putSpaced_of_visible blank]
      | true =>
          have dropped : trimStart (c :: t) = trimStart t := List.dropWhile_cons_of_pos blank
          rw [dropped, ih, squeeze_cons, putSpaced, if_pos blank]
          split
          · rfl
          · exact (List.dropWhile_cons_of_pos isBlank_space).symm

section
variable (stops : ∀ c, isBlank c = true → f c = false)
include stops

theorem squeeze_trimStartOf (t : Text) :
    squeeze (trimStartOf f t) = trimStartOf f (squeeze t) := by
  induction t with
  | nil => rfl
  | cons c t ih =>
      cases dropped : f c with
      | true =>
          have visible : isBlank c = false :=
            Bool.eq_false_iff.2 fun blank => Bool.eq_false_iff.1 (stops c blank) dropped
          rw [squeeze_cons, putSpaced_of_visible visible, trimStartOf, trimStartOf,
            List.dropWhile_cons_of_pos dropped, List.dropWhile_cons_of_pos dropped]
          exact ih
      | false =>
          have kept : trimStartOf f (c :: t) = c :: t :=
            List.dropWhile_cons_of_neg (Bool.eq_false_iff.1 dropped)
          obtain ⟨d, rest, narrow, other⟩ : ∃ d rest, squeeze (c :: t) = d :: rest ∧ f d = false := by
            cases blank : isBlank c with
            | false => exact ⟨c, _, putSpaced_of_visible blank _, dropped⟩
            | true =>
                obtain ⟨rest, narrow⟩ :=
                  List.head?_eq_some_iff.1 (head?_putSpaced_of_blank blank (squeeze t))
                exact ⟨' ', rest, narrow, stops ' ' isBlank_space⟩
          rw [kept, narrow, trimStartOf, List.dropWhile_cons_of_neg (Bool.eq_false_iff.1 other)]

theorem trimEndOf_putSpaced (kept : ¬(f c = true ∧ trimEndOf f t = [])) :
    trimEndOf f (putSpaced c t) = putSpaced c (trimEndOf f t) := by
  cases blank : isBlank c with
  | false =>
      rw [putSpaced_of_visible blank, putSpaced_of_visible blank, trimEndOf_cons, if_neg kept]
  | true =>
      have space (u : Text) : trimEndOf f (' ' :: u) = ' ' :: trimEndOf f u := by
        rw [trimEndOf_cons, if_neg fun both => Bool.eq_false_iff.1 (stops ' ' isBlank_space) both.1]
      rw [putSpaced, putSpaced, if_pos blank, if_pos blank]
      cases t with
      | nil => exact space []
      | cons d t =>
          by_cases same : d = ' '
          · subst same
            have first (u : Text) : (' ' :: u).head? = some ' ' := List.head?_cons
            rw [if_pos (first t), space, if_pos (first _)]
          · have other (u : Text) : (d :: u).head? ≠ some ' ' :=
              fun first => same (Option.some.inj first)
            rw [if_neg (other t), space, trimEndOf_cons]
            split
            · rfl
            · rw [if_neg (other _)]

theorem squeeze_trimEndOf (t : Text) : squeeze (trimEndOf f t) = trimEndOf f (squeeze t) := by
  induction t with
  | nil => rfl
  | cons c t ih =>
      rw [trimEndOf_cons]
      split
      · next dropped =>
          have visible : isBlank c = false :=
            Bool.eq_false_iff.2 fun blank => Bool.eq_false_iff.1 (stops c blank) dropped.1
          have none : trimEndOf f (squeeze t) = [] := by
            rw [← ih, dropped.2]
            rfl
          rw [squeeze_cons, putSpaced_of_visible visible, trimEndOf_cons, if_pos ⟨dropped.1, none⟩]
          rfl
      · next kept =>
          rw [squeeze_cons, squeeze_cons, ih]
          refine (trimEndOf_putSpaced stops fun both => kept ⟨both.1, ?_⟩).symm
          exact squeeze_eq_nil_iff.1 (ih.trans both.2)

/-- Trimming by a class without white space leaves the gaps as they are. -/
theorem squeeze_trimOf (t : Text) : squeeze (trimOf f t) = trimOf f (squeeze t) := by
  rw [trimOf, trimOf, squeeze_trimEndOf stops, squeeze_trimStartOf stops]

end

namespace Respaced

theorem refl (t : Text) : Respaced t t := rfl

theorem squeezed (t : Text) : Respaced t (squeeze t) := squeeze_squeeze t

theorem append (first : Respaced s u) (second : Respaced t v) : Respaced (s ++ t) (u ++ v) := by
  rw [Respaced, ← squeeze_squeeze_append u, first, squeeze_squeeze_append]
  exact squeeze_append_congr s second

theorem collapse_eq (respaced : Respaced s t) : collapse t = collapse s := by
  rw [← collapse_squeeze, ← collapse_squeeze s, respaced]

theorem eq_nil_iff (respaced : Respaced s t) : s = [] ↔ t = [] := by
  rw [← squeeze_eq_nil_iff, ← squeeze_eq_nil_iff (t := t), respaced]

theorem trimStart (respaced : Respaced s t) : Respaced (Text.trimStart s) (Text.trimStart t) := by
  rw [Respaced, squeeze_trimStart, squeeze_trimStart, respaced]

theorem trimStartOf (stops : ∀ c, isBlank c = true → f c = false) (respaced : Respaced s t) :
    Respaced (Text.trimStartOf f s) (Text.trimStartOf f t) := by
  rw [Respaced, squeeze_trimStartOf stops, squeeze_trimStartOf stops, respaced]

theorem trimOf (stops : ∀ c, isBlank c = true → f c = false) (respaced : Respaced s t) :
    Respaced (Text.trimOf f s) (Text.trimOf f t) := by
  rw [Respaced, squeeze_trimOf stops, squeeze_trimOf stops, respaced]

end Respaced
end ApiReference.Text
