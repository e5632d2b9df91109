import ApiReference.Proofs.Text.Parts
import ApiReference.Proofs.Text.Words
import Mathlib.Data.List.DropRight

/-!
# What trimming leaves

Characters outside the class that is cut off stay, and so does all that is between them; nothing new
comes in. The words of a text stay. Main statements: `trimEndOf_append_cons`, `trimOf_sublist`,
`mem_trimOf`, `strips_iff`, `words_trim`.
-/

namespace ApiReference.Text

/-- What is cut off at the end reaches back to the last character outside the class at most. -/
theorem trimEndOf_append_cons {p : Char → Bool} {c : Char} (kept : p c = false) (a b : Text) :
    trimEndOf p (a ++ c :: b) = a ++ c :: trimEndOf p b := by
  unfold trimEndOf
  rw [List.reverse_append, List.reverse_cons, List.append_assoc, List.dropWhile_append]
  split
  · next all =>
      rw [List.isEmpty_iff.mp all, List.singleton_append,
        List.dropWhile_cons_of_neg (by rw [kept]; exact Bool.false_ne_true)]
      simp
  · simp

theorem trimEndOf_cons (p : Char → Bool) (c : Char) (t : Text) : trimEndOf p (c :: t) =
    if p c = true ∧ trimEndOf p t = [] then [] else c :: trimEndOf p t := by
  unfold trimEndOf
  rw [List.reverse_cons, List.dropWhile_append]
  by_cases none : t.reverse.dropWhile p = []
  · rw [if_pos (List.isEmpty_iff.2 none), none]
    cases kept : p c with
    | true =>
        rw [List.dropWhile_cons_of_pos kept]
        exact (if_pos ⟨rfl, rfl⟩).symm
    | false =>
        rw [List.dropWhile_cons_of_neg (Bool.eq_false_iff.1 kept)]
        exact (if_neg fun both => Bool.false_ne_true both.1).symm
  · rw [if_neg (mt List.isEmpty_iff.1 none),
      if_neg fun both => none (List.reverse_eq_nil_iff.1 both.2), List.reverse_append]
    rfl

theorem trimEndOf_of_getLast? {p : Char → Bool} {c : Char} {t : Text} (last : t.getLast? = some c)
    (kept : p c = false) : trimEndOf p t = t := by
  obtain ⟨t, rfl⟩ := List.getLast?_eq_some_iff.mp last
  rw [trimEndOf_append_cons kept]
  rfl

theorem trimEndOf_append_dropped (p : Char → Bool) (t : Text) :
    trimEndOf p t ++ (t.reverse.takeWhile p).reverse = t := by
  rw [trimEndOf, ← List.reverse_append, List.takeWhile_append_dropWhile, List.reverse_reverse]

theorem exists_eq_trimEndOf_append (p : Char → Bool) (t : Text) :
    ∃ dropped, t = trimEndOf p t ++ dropped := ⟨_, (trimEndOf_append_dropped p t).symm⟩

theorem trimEndOf_eq_nil_iff {p : Char → Bool} {t : Text} :
    trimEndOf p t = [] ↔ ∀ c ∈ t, p c = true := by
  rw [trimEndOf, List.reverse_eq_nil_iff, List.dropWhile_eq_nil_iff]
  simp only [List.mem_reverse]

theorem trimEndOf_append {p : Char → Bool} (a : Text) {b : Text} (dropped : ∀ c ∈ b, p c = true) :
    trimEndOf p (a ++ b) = trimEndOf p a := by
  rw [trimEndOf, List.reverse_append,
    List.dropWhile_append_of_pos fun c member => dropped c (List.mem_reverse.1 member)]
  rfl

theorem mem_of_mem_trimEndOf {p : Char → Bool} {t : Text} {c : Char} (member : c ∈ trimEndOf p t) :
    c ∈ t := by
  rw [← trimEndOf_append_dropped p t]
  exact List.mem_append_left _ member

theorem mem_trimEndOf {p : Char → Bool} {c : Char} {t : Text} (kept : p c = false)
    (member : c ∈ t) : c ∈ trimEndOf p t := by
  obtain ⟨a, b, rfl⟩ := List.append_of_mem member
  rw [trimEndOf_append_cons kept]
  exact List.mem_append_right a List.mem_cons_self

theorem trimOf_sublist (p : Char → Bool) (t : Text) : (trimOf p t).Sublist t := by
  have front : trimOf p t <+: trimStartOf p t := ⟨_, trimEndOf_append_dropped p (trimStartOf p t)⟩
  exact front.sublist.trans (List.dropWhile_sublist p)

theorem trimStartOf_append_cons {p : Char → Bool} {c : Char} (kept : p c = false) (a b : Text) :
    trimStartOf p (a ++ c :: b) = trimStartOf p a ++ c :: b := by
  unfold trimStartOf
  rw [List.dropWhile_append]
  split
  · next all =>
      rw [List.isEmpty_iff.1 all, List.nil_append, List.dropWhile_cons_of_neg (Bool.eq_false_iff.1 kept)]
  · rfl

theorem trimOf_append_cons {p : Char → Bool} {c : Char} (kept : p c = false) (a b : Text) :
    trimOf p (a ++ c :: b) = trimStartOf p a ++ c :: trimEndOf p b := by
  rw [trimOf, trimStartOf_append_cons kept, trimEndOf_append_cons kept]

theorem trimOf_append_of_forall {p : Char → Bool} {dropped : Text} (all : ∀ c ∈ dropped, p c = true)
    (t : Text) : trimOf p (t ++ dropped) = trimOf p t := by
  unfold trimOf trimStartOf
  rw [List.dropWhile_append]
  split
  · next none =>
      rw [List.dropWhile_eq_nil_iff.2 all, List.isEmpty_iff.1 none]
  · exact trimEndOf_append _ all

theorem trimOf_trimEndOf (p : Char → Bool) (t : Text) : trimOf p (trimEndOf p t) = trimOf p t := by
  have whole := trimEndOf_append_dropped p t
  have dropped : ∀ c ∈ (t.reverse.takeWhile p).reverse, p c = true := fun c member =>
    List.mem_takeWhile_imp (List.mem_reverse.1 member)
  rw [← trimOf_append_of_forall dropped, whole]

theorem trimEndOf_trimEndOf (p : Char → Bool) (t : Text) :
    trimEndOf p (trimEndOf p t) = trimEndOf p t := by
  unfold trimEndOf
  rw [List.reverse_reverse, List.dropWhile_idempotent]

/-- What begins and ends with characters outside the class stays as it is. -/
theorem trimOf_append_of_ends {p : Char → Bool} {a : Text} (first : ∀ c ∈ a.head?, p c = false)
    {d : Char} (last : a.getLast? = some d) (kept : p d = false) (b : Text) :
    trimOf p (a ++ b) = a ++ trimEndOf p b := by
  obtain ⟨a, rfl⟩ := List.getLast?_eq_some_iff.1 last
  have start : trimStartOf p a = a := by
    cases a with
    | nil => rfl
    | cons c a => exact List.dropWhile_cons_of_neg (Bool.eq_false_iff.1 (first c rfl))
  rw [List.append_assoc, List.singleton_append, trimOf_append_cons kept, start, List.append_assoc,
    List.singleton_append]

/-- A trimmed text stays as it is behind another one. -/
theorem exists_trimEndOf_append {p : Char → Bool} {t : Text} (trimmed : trimOf p t = t) (a : Text) :
    ∃ b, trimEndOf p (a ++ t) = b ++ t := by
  cases last : t.getLast? with
  | none =>
      rw [List.getLast?_eq_none_iff.1 last]
      exact ⟨_, (List.append_nil _).symm⟩
  | some c =>
      refine ⟨a, trimEndOf_of_getLast? (c := c) ?_ ?_⟩
      · rw [List.getLast?_append, last, Option.some_or]
      · have final : (trimOf p t).reverse.head? = some c := by
          rw [trimmed, List.head?_reverse, last]
        rw [trimOf, trimEndOf, List.reverse_reverse] at final
        exact head?_dropWhile p _ c final

/-- A character outside the class is not cut off. -/
theorem mem_trimOf {p : Char → Bool} {c : Char} {t : Text} (kept : p c = false) (member : c ∈ t) :
    c ∈ trimOf p t := by
  have inside : c ∈ trimStartOf p t := by
    rw [← List.takeWhile_append_dropWhile (p := p) (l := t), List.mem_append] at member
    refine member.resolve_left fun front => ?_
    rw [List.mem_takeWhile_imp front] at kept
    cases kept
  exact mem_trimEndOf kept inside

theorem trimOf_of_forall {p : Char → Bool} {t : Text} (none : ∀ c ∈ t, p c = false) :
    trimOf p t = t := by
  have start : trimStartOf p t = t := List.dropWhile_eq_self_iff.2 fun filled =>
    Bool.eq_false_iff.1 (none _ (List.getElem_mem filled))
  rw [trimOf, start]
  cases last : t.getLast? with
  | none => rw [List.getLast?_eq_none_iff.1 last]; rfl
  | some c => exact trimEndOf_of_getLast? last (none c (List.mem_of_getLast? last))

/-- Whether a text is what is between the blanks at the ends of another one. -/
structure Strips (t core : Text) : Prop where
  around : ∃ before after, t = before ++ (core ++ after) ∧
    (∀ c ∈ before, isBlank c = true) ∧ ∀ c ∈ after, isBlank c = true
  first : ∀ c ∈ core.head?, isBlank c = false
  last : ∀ c ∈ core.getLast?, isBlank c = false

theorem strips_trim (t : Text) : Strips t (trim t) := by
  have front : trimStart t = trim t ++ ((trimStart t).reverse.takeWhile isBlank).reverse :=
    (trimEndOf_append_dropped isBlank (trimStart t)).symm
  refine ⟨⟨t.takeWhile isBlank, ((trimStart t).reverse.takeWhile isBlank).reverse, ?_,
    fun _ => List.mem_takeWhile_imp, fun c member => ?_⟩, fun c first => ?_, fun c last => ?_⟩
  · rw [← front]
    exact List.takeWhile_append_dropWhile.symm
  · exact List.mem_takeWhile_imp (List.mem_reverse.1 member)
  · apply head?_dropWhile isBlank t
    rw [show t.dropWhile isBlank = _ from front, List.head?_append, Option.mem_def.1 first,
      Option.some_or]
    rfl
  · apply head?_dropWhile isBlank (trimStart t).reverse
    rwa [trim, trimOf, trimEndOf, List.getLast?_reverse] at last

theorem Strips.eq {t core : Text} (strips : Strips t core) : trim t = core := by
  obtain ⟨⟨before, after, rfl, front, back⟩, first, last⟩ := strips
  have opened : trim (before ++ (core ++ after)) = trim (core ++ after) := by
    rw [trim, trimOf, trimStartOf, List.dropWhile_append_of_pos front]
    rfl
  rw [opened]
  cases final : core.getLast? with
  | none =>
      rw [List.getLast?_eq_none_iff.1 final]
      exact trim_eq_nil_iff.2 back
  | some d =>
      rw [trim, trimOf_append_of_ends first final (last d final), trimEndOf_eq_nil_iff.2 back,
        List.append_nil]

/-- There is one way to leave out the blanks at the ends of a text. -/
theorem strips_iff {t core : Text} : Strips t core ↔ trim t = core :=
  ⟨Strips.eq, fun same => same ▸ strips_trim t⟩

section
variable {blanks : Text} (all : ∀ c ∈ blanks, isBlank c = true)
include all

theorem words_blanks_append (t : Text) : words (blanks ++ t) = words t := by
  induction blanks with
  | nil => rfl
  | cons c blanks ih =>
      obtain ⟨blank, rest⟩ := List.forall_mem_cons.1 all
      have cut := words_append_cons blank [] (blanks ++ t)
      rwa [List.nil_append, ih rest] at cut

theorem words_append_blanks (t : Text) : words (t ++ blanks) = words t := by
  cases blanks with
  | nil => rw [List.append_nil]
  | cons c blanks =>
      obtain ⟨blank, rest⟩ := List.forall_mem_cons.1 all
      have nothing := words_blanks_append rest []
      rw [List.append_nil] at nothing
      rw [words_append_cons blank, nothing]
      exact List.append_nil (words t)

end

theorem words_trimStart (t : Text) : words (trimStart t) = words t := by
  have front : ∀ c ∈ t.takeWhile isBlank, isBlank c = true := fun _ => List.mem_takeWhile_imp
  rw [← words_blanks_append front]
  exact congrArg words List.takeWhile_append_dropWhile

theorem words_trim (t : Text) : words (trim t) = words t := by
  have back : ∀ c ∈ ((trimStart t).reverse.takeWhile isBlank).reverse, isBlank c = true :=
    fun c member => List.mem_takeWhile_imp (List.mem_reverse.1 member)
  calc words (trim t)
      = words (trimStart t) := by
        rw [← words_append_blanks back]
        exact congrArg words (trimEndOf_append_dropped isBlank (trimStart t))
    _ = words t := words_trimStart t

/-- On one line a text goes on after its first word, if at all, with a space. -/
theorem exists_first_word (t : Text) : ∃ w rest more, trimStart t = w ++ rest ∧
    collapse t = w ++ more ∧ (∀ c ∈ rest.head?, isBlank c = true) ∧
    ∀ c ∈ more.head?, isBlank c = true := by
  have started : ∀ c ∈ (trimStart t).head?, isBlank c = false := head?_dropWhile isBlank t
  rw [collapse, ← words_trimStart]
  generalize trimStart t = u at started
  obtain ⟨w, rest, rfl, visible, stopped⟩ : ∃ w rest, u = w ++ rest ∧
      (∀ c ∈ w, isBlank c = false) ∧ ∀ c ∈ rest.head?, isBlank c = true := by
    refine ⟨u.takeWhile (!isBlank ·), u.dropWhile (!isBlank ·),
      List.takeWhile_append_dropWhile.symm, fun c member => ?_, fun c first => ?_⟩
    · exact Bool.not_eq_true' _ ▸ List.mem_takeWhile_imp (p := (!isBlank ·)) member
    · exact Bool.not_eq_false' _ ▸ head?_dropWhile (!isBlank ·) u c first
  cases rest with
  | nil =>
      refine ⟨w, [], [], rfl, ?_, nofun, nofun⟩
      rw [List.append_nil]
      cases w with
      | nil => rfl
      | cons d w =>
          rw [IsWord.words_eq ⟨List.cons_ne_nil d w, visible⟩]
          rfl
  | cons c rest =>
      cases w with
      | nil => exact absurd (stopped c rfl) (Bool.eq_false_iff.1 (started c rfl))
      | cons d w =>
          have word : IsWord (d :: w) := ⟨List.cons_ne_nil d w, visible⟩
          rw [words_append_cons (stopped c rfl), word.words_eq, List.singleton_append]
          cases words rest with
          | nil => exact ⟨d :: w, c :: rest, [], rfl, (List.append_nil _).symm, stopped, nofun⟩
          | cons v vs =>
              refine ⟨d :: w, c :: rest, ' ' :: join [' '] (v :: vs), rfl, ?_, stopped, ?_⟩
              · exact List.append_assoc (d :: w) [' '] (join [' '] (v :: vs))
              · exact fun c first => Option.some.inj first ▸ by decide

end ApiReference.Text
