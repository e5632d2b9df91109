import ApiReference.Proofs.Text.Trimming
import ApiReference.Proofs.Text.Words

/-!
# What is stripped, and lines

A beginning is stripped as often as it stands, so that one that stands once is stripped once, and so
is an ending. The lines of a text are those of its first row and of what follows. Main statements:
`stripStartAll_iff`, `stripEndAll_append`, `lines_append_lineFeed`.
-/

namespace ApiReference.Text
variable {part t : Text}

theorem not_prefix_of_head? {c : Char} {part t : Text} (other : ∀ d ∈ t.head?, d ≠ c) :
    ¬ c :: part <+: t := by
  rintro ⟨rest, rfl⟩
  exact other c rfl rfl

theorem stripStartAll_go (other : ¬ part <+: t) (n : Nat) : stripStartAll.go part n t = t := by
  cases n with
  | zero => rfl
  | succ n =>
      rw [stripStartAll.go, stripStart_eq_none other]
      exact ite_self t

theorem stripStartAll_of_not_prefix (other : ¬ part <+: t) : stripStartAll part t = t :=
  stripStartAll_go other t.length

theorem stripStartAll_append (other : ¬ part <+: t) : stripStartAll part (part ++ t) = t := by
  cases part with
  | nil => exact absurd List.nil_prefix other
  | cons c part =>
      have once : stripStartAll (c :: part) (c :: part ++ t) =
          stripStartAll.go (c :: part) (part ++ t).length t := by
        rw [stripStartAll, List.cons_append, List.length_cons, stripStartAll.go, ← List.cons_append,
          stripStart_append]
        rfl
      rw [once, stripStartAll_go other]

/-- A text as copies of a beginning and what follows the last of them. -/
theorem exists_stripStartAll_go (filled : part ≠ []) {n : Nat} (enough : t.length ≤ n) :
    ∃ k, t = (List.replicate k part).flatten ++ stripStartAll.go part n t ∧
      ¬ part <+: stripStartAll.go part n t := by
  induction n generalizing t with
  | zero =>
      obtain rfl := List.length_eq_zero_iff.1 (Nat.le_zero.1 enough)
      exact ⟨0, rfl, mt List.prefix_nil.1 filled⟩
  | succ n ih =>
      by_cases begins : part <+: t
      · obtain ⟨rest, rfl⟩ := begins
        have shorter : rest.length ≤ n := by
          have := List.length_pos_iff.2 filled
          rw [List.length_append] at enough
          omega
        obtain ⟨k, split, ended⟩ := ih shorter
        have once : stripStartAll.go part (n + 1) (part ++ rest) = stripStartAll.go part n rest := by
          rw [stripStartAll.go, if_neg (mt List.isEmpty_iff.1 filled), stripStart_append]
        rw [once]
        refine ⟨k + 1, ?_, ended⟩
        rw [List.replicate_succ, List.flatten_cons, List.append_assoc, ← split]
      · rw [stripStartAll_go begins]
        exact ⟨0, rfl, begins⟩

theorem eq_of_flatten_replicate {u v : Text} (first : ¬ part <+: u) (second : ¬ part <+: v)
    {j k : Nat} (same : (List.replicate j part).flatten ++ u = (List.replicate k part).flatten ++ v) :
    u = v := by
  induction j generalizing k with
  | zero =>
      cases k with
      | zero => exact same
      | succ k =>
          rw [List.replicate_succ, List.flatten_cons, List.append_assoc] at same
          exact absurd ⟨_, same.symm⟩ first
  | succ j ih =>
      rw [List.replicate_succ, List.flatten_cons, List.append_assoc] at same
      cases k with
      | zero => exact absurd ⟨_, same⟩ second
      | succ k =>
          rw [List.replicate_succ, List.flatten_cons, List.append_assoc] at same
          exact ih (List.append_cancel_left same)

theorem stripStartAll_iff (filled : part ≠ []) {u : Text} : stripStartAll part t = u ↔
    (∃ n, t = (List.replicate n part).flatten ++ u) ∧ ¬ part <+: u := by
  obtain ⟨k, split, ended⟩ := exists_stripStartAll_go filled (Nat.le_refl t.length)
  constructor
  · rintro rfl
    exact ⟨⟨k, split⟩, ended⟩
  · rintro ⟨⟨n, other⟩, last⟩
    exact eq_of_flatten_replicate ended last (split.symm.trans other)

theorem stripEndAll_append (other : ¬ part <:+ t) : stripEndAll part (t ++ part) = t := by
  have backwards : ¬ part.reverse <+: t.reverse := mt List.reverse_prefix.1 other
  rw [stripEndAll, List.reverse_append, stripStartAll_append backwards, List.reverse_reverse]

/-- A row without the carriage return at its end. -/
def withoutReturn (row : Text) : Text := (stripEnd ['\r'] row).getD row

theorem exists_withoutReturn (row : Text) :
    ∃ dropped, row = withoutReturn row ++ dropped ∧ ∀ c ∈ dropped, isBlank c = true := by
  rw [withoutReturn]
  cases found : stripEnd ['\r'] row with
  | none => exact ⟨[], (List.append_nil row).symm, List.forall_mem_nil _⟩
  | some start =>
      obtain ⟨rest, backwards, rfl⟩ := Option.map_eq_some_iff.1 found
      refine ⟨['\r'], ?_, by decide⟩
      cases reversed : row.reverse with
      | nil =>
          rw [reversed] at backwards
          cases backwards
      | cons c more =>
          rw [reversed, List.reverse_singleton, stripStart] at backwards
          split at backwards
          · next same =>
              cases backwards
              rw [← row.reverse_reverse, reversed, List.reverse_cons, ← same]
              rfl
          · cases backwards

theorem lines_append_lineFeed {row : Text} (single : '\n' ∉ row) (t : Text) :
    lines (row ++ '\n' :: t) = withoutReturn row :: lines t := by
  have first : splitOn (· == '\n') row = [row] := splitOn_of_forall fun c member =>
    beq_false_of_ne fun same => single (same ▸ member)
  obtain ⟨piece, more, pieces⟩ := List.exists_cons_of_ne_nil (splitOn_ne_nil (· == '\n') t)
  rw [lines, lines, splitOn_append_cons (p := (· == '\n')) rfl, first, pieces]
  rfl

theorem lines_of_single (single : '\n' ∉ t) : lines t = if t = [] then [] else [t] := by
  have whole : splitOn (· == '\n') t = [t] := splitOn_of_forall fun c member =>
    beq_false_of_ne fun same => single (same ▸ member)
  rw [lines, whole]
  cases t <;> rfl

end ApiReference.Text
