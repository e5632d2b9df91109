import ApiReference.Text.Basic
import Mathlib.Data.List.TakeWhile
import Mathlib.Data.List.Infix

/-!
# Parts of a text

Beginnings and occurrences as relations between lists, runs of a class of characters, and which
characters survive joining and trimming.
-/

namespace ApiReference.Text
variable {p : Char → Bool} {part t run rest : Text}

section
variable {P : Char → Prop} [DecidablePred P]

-- What is said of all characters that there are is decidable as well, but not in practice.
instance decidableForallMem (t : Text) : Decidable (∀ c ∈ t, P c) := List.decidableBAll P t

instance decidableExistsMem (t : Text) : Decidable (∃ c ∈ t, P c) := List.decidableBEx P t

instance decidableForallMemOption (o : Option Char) : Decidable (∀ c ∈ o, P c) :=
  Option.decidableForallMem o

end

theorem startsWith_iff : startsWith part t = true ↔ part <+: t := by
  have strip (part t : Text) : (stripStart part t).isSome ↔ part <+: t := by
    induction part generalizing t with
    | nil => simp [stripStart]
    | cons c part ih =>
        cases t with
        | nil => simp [stripStart]
        | cons d t =>
            rw [stripStart, List.cons_prefix_cons]
            split
            · next same => simp only [ih, same, true_and]
            · next differ => simp [differ]
  exact strip part t

theorem stripStart_append (a b : Text) : stripStart a (a ++ b) = some b := by
  induction a with
  | nil => rw [List.nil_append, stripStart]
  | cons c a ih => rw [List.cons_append, stripStart, if_pos rfl, ih]

theorem stripStart_eq_some_iff : stripStart part t = some rest ↔ t = part ++ rest := by
  constructor
  · intro found
    obtain ⟨more, rfl⟩ := startsWith_iff.1 (Option.isSome_of_mem found)
    rw [stripStart_append] at found
    rw [Option.some.inj found]
  · rintro rfl
    exact stripStart_append part rest

theorem stripStart_eq_none (other : ¬ part <+: t) : stripStart part t = none :=
  Option.not_isSome_iff_eq_none.1 (mt startsWith_iff.1 other)

theorem occursIn_iff : occursIn part t = true ↔ part <:+: t := by
  induction t with
  | nil => rw [occursIn, List.isEmpty_iff, List.infix_nil]
  | cons c t ih => rw [occursIn, Bool.or_eq_true, startsWith_iff, ih, List.infix_cons_iff]

theorem takeWhile_run (all : ∀ c ∈ run, p c = true) (ends : ∀ c ∈ rest.head?, p c = false) :
    (run ++ rest).takeWhile p = run := by
  rw [List.takeWhile_append_of_pos all]
  cases rest with
  | nil => simp
  | cons c rest => simp [ends c rfl]

theorem dropWhile_run (all : ∀ c ∈ run, p c = true) (ends : ∀ c ∈ rest.head?, p c = false) :
    (run ++ rest).dropWhile p = rest := by
  rw [List.dropWhile_append_of_pos all]
  cases rest with
  | nil => simp
  | cons c rest => simp [ends c rfl]

theorem drop_length_takeWhile (p : Char → Bool) (t : Text) :
    t.drop (t.takeWhile p).length = t.dropWhile p := by
  calc t.drop (t.takeWhile p).length
      = (t.takeWhile p ++ t.dropWhile p).drop (t.takeWhile p).length :=
        congrArg (List.drop _) List.takeWhile_append_dropWhile.symm
    _ = t.dropWhile p := List.drop_left

theorem head?_dropWhile (p : Char → Bool) (t : Text) :
    ∀ c ∈ (t.dropWhile p).head?, p c = false := by
  intro c found
  simpa only [Option.mem_def.1 found] using List.head?_dropWhile_not p t

theorem replicate_prefix_iff {n : Nat} {c : Char} :
    List.replicate n c <+: t ↔ n ≤ (t.takeWhile (· == c)).length := by
  induction n generalizing t with
  | zero => simp
  | succ n ih =>
      cases t with
      | nil => simp [List.replicate_succ]
      | cons d t =>
          rw [List.replicate_succ, List.cons_prefix_cons, ih]
          by_cases same : c = d
          · subst same
            simp
          · simp [same, Ne.symm same]

theorem trim_eq_nil_iff : trim t = [] ↔ ∀ c ∈ t, isBlank c = true := by
  have kept (u : Text) :
      (u.reverse.dropWhile isBlank).reverse = [] ↔ ∀ c ∈ u, isBlank c = true := by
    rw [List.reverse_eq_nil_iff, List.dropWhile_eq_nil_iff]
    simp only [List.mem_reverse]
  rw [trim, trimOf, trimEndOf, trimStartOf, kept]
  constructor
  · intro blank c member
    rw [← List.takeWhile_append_dropWhile (p := isBlank) (l := t), List.mem_append] at member
    exact member.elim List.mem_takeWhile_imp (blank c)
  · intro blank c member
    exact blank c ((List.dropWhile_sublist isBlank).mem member)

theorem forall_mem_join {P : Char → Prop} {sep : Text} (among : ∀ c ∈ sep, P c) (ts : List Text) :
    (∀ c ∈ join sep ts, P c) ↔ ∀ t ∈ ts, ∀ c ∈ t, P c := by
  induction ts with
  | nil => simp [join]
  | cons t ts ih =>
      cases ts with
      | nil => simp [join]
      | cons u ts =>
          have split : join sep (t :: u :: ts) = t ++ (sep ++ join sep (u :: ts)) :=
            List.append_assoc ..
          rw [split, List.forall_mem_append, List.forall_mem_append, ih]
          simp only [List.forall_mem_cons]
          exact and_congr_right fun _ => and_iff_right among

end ApiReference.Text
