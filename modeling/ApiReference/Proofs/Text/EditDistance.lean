import ApiReference.Text.EditDistance
import Mathlib.Order.Bounds.Defs
import Mathlib.Order.MinMax

/-!
# Edit distance is the least number of edits

The entries of the table obey a recursion that looks at the last characters of two beginnings. One
edit of either text changes an entry by one at most, and as many edits as an entry says are enough.
Main statement: `isLeast_editDistance`.
-/

namespace ApiReference.Text

/-- One character is inserted, deleted or replaced. -/
inductive Edit : Text → Text → Prop where
  | insert (a : Text) (c : Char) (b : Text) : Edit (a ++ b) (a ++ c :: b)
  | delete (a : Text) (c : Char) (b : Text) : Edit (a ++ c :: b) (a ++ b)
  | replace (a : Text) (c d : Char) (b : Text) : Edit (a ++ c :: b) (a ++ d :: b)

/-- One text turns into another by a number of edits. -/
inductive Edits : Nat → Text → Text → Prop where
  | refl (a : Text) : Edits 0 a a
  | step {n : Nat} {a b c : Text} (first : Edit a b) (more : Edits n b c) : Edits (n + 1) a c

theorem Edit.cons {a b : Text} (h : Edit a b) (c : Char) : Edit (c :: a) (c :: b) := by
  cases h with
  | insert a d b => exact .insert (c :: a) d b
  | delete a d b => exact .delete (c :: a) d b
  | replace a d e b => exact .replace (c :: a) d e b

theorem Edit.reverse {a b : Text} (h : Edit a b) : Edit a.reverse b.reverse := by
  cases h with
  | insert a c b => simpa using Edit.insert b.reverse c a.reverse
  | delete a c b => simpa using Edit.delete b.reverse c a.reverse
  | replace a c d b => simpa using Edit.replace b.reverse c d a.reverse

namespace Edits
variable {n : Nat} {a b : Text}

theorem cons (h : Edits n a b) (c : Char) : Edits n (c :: a) (c :: b) := by
  induction h with
  | refl a => exact .refl (c :: a)
  | step first _ ih => exact .step (first.cons c) ih

theorem reverse (h : Edits n a b) : Edits n a.reverse b.reverse := by
  induction h with
  | refl a => exact .refl a.reverse
  | step first _ ih => exact .step first.reverse ih

theorem deleteAll : (a : Text) → Edits a.length a []
  | [] => .refl []
  | c :: a => .step (.delete [] c a) (deleteAll a)

theorem insertAll (b : Text) : Edits b.length [] b := by
  induction b with
  | nil => exact .refl []
  | cons d b ih => exact .step (.insert [] d []) (ih.cons d)

end Edits

/-- The entry of the table for two beginnings, each given from its end. -/
def entry : Text → Text → Nat
  | [], b => b.length
  | c :: a, [] => a.length + 1
  | c :: a, d :: b =>
    min (min (entry (c :: a) b + 1) (entry a (d :: b) + 1)) (entry a b + if c = d then 0 else 1)
termination_by a b => a.length + b.length

@[simp] theorem entry_nil_left (b : Text) : entry [] b = b.length := by rw [entry]

@[simp] theorem entry_nil_right (a : Text) : entry a [] = a.length := by
  cases a with
  | nil => rw [entry_nil_left]
  | cons c a => rw [entry, List.length_cons]

theorem entry_cons_cons (c d : Char) (a b : Text) : entry (c :: a) (d :: b) =
    min (min (entry (c :: a) b + 1) (entry a (d :: b) + 1))
      (entry a b + if c = d then 0 else 1) := by
  rw [entry]

/-- The rest of a row, for the beginnings that go on from a given one. -/
def rowAfter (a : Text) : Text → Text → List Nat
  | _, [] => []
  | b, d :: ds => entry a (d :: b) :: rowAfter a (d :: b) ds

theorem rowAfter_nil (b ds : Text) : rowAfter [] b ds = List.range' (b.length + 1) ds.length := by
  induction ds generalizing b with
  | nil => rfl
  | cons d ds ih => rw [rowAfter, ih, entry_nil_left, List.length_cons, List.length_cons,
      List.range'_succ]

theorem nextRow_rowAfter (c : Char) (a b ds : Text) :
    nextRow c ds (entry a b) (entry (c :: a) b) (rowAfter a b ds) = rowAfter (c :: a) b ds := by
  induction ds generalizing b with
  | nil => rfl
  | cons d ds ih =>
      rw [rowAfter, nextRow]
      simp only [← entry_cons_cons]
      rw [ih, rowAfter]

theorem lastRow_rowAfter (a cs b : Text) :
    lastRow b cs (entry a [] :: rowAfter a [] b) =
      entry (cs.reverse ++ a) [] :: rowAfter (cs.reverse ++ a) [] b := by
  induction cs generalizing a with
  | nil => rfl
  | cons c cs ih =>
      have corner : entry a [] + 1 = entry (c :: a) [] := by
        rw [entry_nil_right, entry_nil_right, List.length_cons]
      rw [lastRow, corner, nextRow_rowAfter, ih, List.reverse_cons, List.append_assoc,
        List.singleton_append]

theorem getLast?_rowAfter (a b ds : Text) :
    (entry a b :: rowAfter a b ds).getLast? = some (entry a (ds.reverse ++ b)) := by
  induction ds generalizing b with
  | nil => rfl
  | cons d ds ih =>
      rw [rowAfter, List.getLast?_cons_cons, ih, List.reverse_cons, List.append_assoc,
        List.singleton_append]

/-- The last entry of the last row is the one for both whole texts. -/
theorem editDistance_eq_entry (a b : Text) : editDistance a b = entry a.reverse b.reverse := by
  have first : List.range (b.length + 1) = entry [] [] :: rowAfter [] [] b := by
    rw [rowAfter_nil, entry_nil_left, List.range_eq_range', List.range'_succ]
    rfl
  rw [editDistance, first, lastRow_rowAfter, getLast?_rowAfter, Option.getD_some, List.append_nil,
    List.append_nil]

theorem edits_entry (a b : Text) : Edits (entry a b) a b := by
  induction a generalizing b with
  | nil => rw [entry_nil_left]; exact .insertAll b
  | cons c a ih =>
      induction b with
      | nil => rw [entry_nil_right]; exact .deleteAll (c :: a)
      | cons d b ih' =>
          have inserted : Edits (entry (c :: a) b + 1) (c :: a) (d :: b) :=
            .step (.insert [] d (c :: a)) (ih'.cons d)
          have deleted : Edits (entry a (d :: b) + 1) (c :: a) (d :: b) :=
            .step (.delete [] c a) (ih (d :: b))
          have replaced : Edits (entry a b + if c = d then 0 else 1) (c :: a) (d :: b) := by
            split
            · next same => subst same; exact (ih b).cons c
            · exact .step (.replace [] c d a) ((ih b).cons d)
          rw [entry_cons_cons]
          exact min_rec' (fun n => Edits n (c :: a) (d :: b))
            (min_rec' (fun n => Edits n (c :: a) (d :: b)) inserted deleted) replaced

theorem entry_self (a : Text) : entry a a = 0 := by
  induction a with
  | nil => exact entry_nil_left []
  | cons c a ih => rw [entry_cons_cons, ih, if_pos rfl, Nat.add_zero, Nat.min_zero]

section
variable (c d : Char) (a b : Text)

theorem entry_cons_le : entry (c :: a) b ≤ entry a b + 1 := by
  cases b with
  | nil => simp
  | cons d b => rw [entry_cons_cons]; omega

theorem entry_le_cons : entry a b ≤ entry (c :: a) b + 1 := by
  induction b with
  | nil => simp; omega
  | cons d b ih =>
      have inserted : entry a (d :: b) ≤ entry a b + 1 := by
        cases a with
        | nil => simp
        | cons c a => rw [entry_cons_cons]; omega
      rw [entry_cons_cons]
      omega

theorem entry_cons_replace : entry (c :: a) b ≤ entry (d :: a) b + 1 := by
  induction b with
  | nil => simp
  | cons e b ih =>
      rw [entry_cons_cons, entry_cons_cons]
      split <;> split <;> omega

end

/-- A character before an edit makes no difference. -/
theorem entry_cons_congr {a a' : Text} (near : ∀ b, entry a b ≤ entry a' b + 1) (c : Char)
    (b : Text) : entry (c :: a) b ≤ entry (c :: a') b + 1 := by
  induction b with
  | nil => simpa using near []
  | cons d b ih =>
      have := near b
      have := near (d :: b)
      rw [entry_cons_cons, entry_cons_cons]
      omega

/-- One edit changes an entry by one at most. -/
theorem Edit.entry_le {a a' : Text} (h : Edit a a') (b : Text) : entry a b ≤ entry a' b + 1 := by
  cases h with
  | insert before c after =>
      induction before generalizing b with
      | nil => exact entry_le_cons c after b
      | cons x before ih => exact entry_cons_congr ih x b
  | delete before c after =>
      induction before generalizing b with
      | nil => exact entry_cons_le c after b
      | cons x before ih => exact entry_cons_congr ih x b
  | replace before c d after =>
      induction before generalizing b with
      | nil => exact entry_cons_replace c d after b
      | cons x before ih => exact entry_cons_congr ih x b

theorem Edits.entry_le {n : Nat} {a b : Text} (h : Edits n a b) : entry a b ≤ n := by
  induction h with
  | refl a => exact Nat.le_of_eq (entry_self a)
  | @step n a a' b first _ ih =>
      have := first.entry_le b
      omega

/-- The table ends in the least number of edits. -/
theorem isLeast_editDistance (a b : Text) : IsLeast {n | Edits n a b} (editDistance a b) := by
  rw [editDistance_eq_entry]
  constructor
  · have edits := (edits_entry a.reverse b.reverse).reverse
    rwa [List.reverse_reverse, List.reverse_reverse] at edits
  · intro n edits
    exact edits.reverse.entry_le

end ApiReference.Text
