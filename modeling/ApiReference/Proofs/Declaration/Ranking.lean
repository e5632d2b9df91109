import ApiReference.Declaration.Search

/-!
# Rankings

`rank` is the stable sort by descending score. To have the first items of a ranking of several lists
put together, it is enough to rank as many items of each list, provided that the lists are ranked
themselves.
-/

namespace ApiReference.Declaration

variable {α : Type} (score : α → Int)

/-- Whether an item does not score lower than another one. -/
def scoresAtLeast (a b : α) : Bool := decide (score b ≤ score a)

/-- Scores do not ascend. -/
def Ranked (as : List α) : Prop := as.Pairwise fun a b => score b ≤ score a

theorem scoresAtLeast_trans (a b c : α) (hab : scoresAtLeast score a b)
    (hbc : scoresAtLeast score b c) : scoresAtLeast score a c := by
  simp only [scoresAtLeast, decide_eq_true_eq] at hab hbc ⊢
  exact Int.le_trans hbc hab

theorem scoresAtLeast_total (a b : α) : scoresAtLeast score a b || scoresAtLeast score b a := by
  simp only [scoresAtLeast, Bool.or_eq_true, decide_eq_true_eq]
  exact Int.le_total (score b) (score a)

/-- Items that score higher stay in front of an inserted one. -/
theorem insertRanked_append_of_lt {a : α} {above : List α} (below : List α)
    (h : ∀ b ∈ above, score a < score b) :
    insertRanked score a (above ++ below) = above ++ insertRanked score a below := by
  induction above with
  | nil => rfl
  | cons b above ih =>
      have higher : ¬ score b ≤ score a := Int.not_le.mpr (h b List.mem_cons_self)
      rw [List.cons_append, insertRanked, if_neg higher,
        ih fun c member => h c (List.mem_cons_of_mem b member), List.cons_append]

theorem insertRanked_of_le {a : α} {below : List α} (h : ∀ b ∈ below, score b ≤ score a) :
    insertRanked score a below = a :: below := by
  cases below with
  | nil => rfl
  | cons b below => rw [insertRanked, if_pos (h b List.mem_cons_self)]

/-- Items that do not score higher stay behind an inserted one. -/
theorem insertRanked_append_of_le {a : α} (above : List α) {below : List α}
    (h : ∀ b ∈ below, score b ≤ score a) :
    insertRanked score a (above ++ below) = insertRanked score a above ++ below := by
  induction above with
  | nil => exact insertRanked_of_le score h
  | cons b above ih =>
      by_cases lower : score b ≤ score a
      · rw [List.cons_append, insertRanked, if_pos lower, insertRanked, if_pos lower]
        rfl
      · rw [List.cons_append, insertRanked, if_neg lower, insertRanked, if_neg lower, ih]
        rfl

theorem insertRanked_perm (a : α) (as : List α) : (insertRanked score a as).Perm (a :: as) := by
  induction as with
  | nil => exact .refl _
  | cons b as ih =>
      rw [insertRanked]
      split
      · exact .refl _
      · exact (ih.cons b).trans (.swap a b as)

/-- The standard stable sort puts the first item behind all that score higher, before the rest. -/
theorem mergeSort_cons (a : α) (as : List α) : ∃ above below,
    (a :: as).mergeSort (scoresAtLeast score) = above ++ a :: below ∧
    as.mergeSort (scoresAtLeast score) = above ++ below ∧
    (∀ b ∈ above, score a < score b) ∧ ∀ b ∈ below, score b ≤ score a := by
  have trans := scoresAtLeast_trans score
  have total := scoresAtLeast_total score
  obtain ⟨above, below, sorted, rest, higher⟩ := List.mergeSort_cons trans total a as
  refine ⟨above, below, sorted, rest, ?_, ?_⟩
  · intro b member
    have failed : scoresAtLeast score a b = false := by simpa using higher b member
    exact Int.not_le.mp (of_decide_eq_false failed)
  · intro b member
    have pairs := List.pairwise_mergeSort trans total (a :: as)
    rw [sorted] at pairs
    exact of_decide_eq_true (List.rel_of_pairwise_cons (List.pairwise_append.mp pairs).2.1 member)

/-- A ranking is the standard stable sort. -/
theorem rank_eq_mergeSort (as : List α) : rank score as = as.mergeSort (scoresAtLeast score) := by
  induction as with
  | nil => simp only [rank, List.mergeSort_nil]
  | cons a as ih =>
      obtain ⟨above, below, sorted, rest, higher, lower⟩ := mergeSort_cons score a as
      rw [rank, ih, rest, sorted, insertRanked_append_of_lt score below higher,
        insertRanked_of_le score lower]

theorem ranked_rank (as : List α) : Ranked score (rank score as) := by
  rw [rank_eq_mergeSort]
  have pairs := List.pairwise_mergeSort (scoresAtLeast_trans score) (scoresAtLeast_total score) as
  exact pairs.imp of_decide_eq_true

/-- A ranked list is its own ranking. -/
theorem rank_of_ranked {as : List α} (ranked : Ranked score as) : rank score as = as := by
  induction as with
  | nil => rfl
  | cons a as ih =>
      obtain ⟨first, rest⟩ := List.pairwise_cons.1 ranked
      rw [rank, ih rest, insertRanked_of_le score first]

theorem rank_perm (as : List α) : (rank score as).Perm as := by
  rw [rank_eq_mergeSort]
  exact List.mergeSort_perm as _

theorem filter_insertRanked (p : α → Bool) (a : α) {as : List α} (ranked : Ranked score as) :
    (insertRanked score a as).filter p =
      if p a then insertRanked score a (as.filter p) else as.filter p := by
  induction as with
  | nil => simp [insertRanked, List.filter_cons]
  | cons b as ih =>
      by_cases least : score b ≤ score a
      · have lower : ∀ c ∈ (b :: as).filter p, score c ≤ score a := by
          intro c member
          rcases List.mem_cons.mp (List.mem_filter.mp member).1 with rfl | behind
          · exact least
          · exact Int.le_trans (List.rel_of_pairwise_cons ranked behind) least
        rw [insertRanked, if_pos least, List.filter_cons, insertRanked_of_le score lower]
      · rw [insertRanked, if_neg least, List.filter_cons, List.filter_cons, ih ranked.of_cons]
        by_cases keptA : p a <;> by_cases keptB : p b <;>
          simp [keptA, keptB, insertRanked, least]

/-- Those items of a ranking that are of one kind are the ranking of the items of that kind. -/
theorem filter_rank (p : α → Bool) (as : List α) :
    (rank score as).filter p = rank score (as.filter p) := by
  induction as with
  | nil => rfl
  | cons a as ih =>
      rw [rank, filter_insertRanked score p a (ranked_rank score as), ih, List.filter_cons]
      split <;> rfl

/-- An item in the ranking of a list parts it in two, and without the item the two parts remain.
Whatever stands before the item in the list and does not score lower is above it. -/
theorem rank_middle (a : α) (before after : List α) : ∃ above below,
    rank score (before ++ a :: after) = above ++ a :: below ∧
    rank score (before ++ after) = above ++ below ∧
    (∀ b ∈ above, score a ≤ score b) ∧ (∀ b ∈ below, score b ≤ score a) ∧
    (before.filter (scoresAtLeast score · a)).length ≤ above.length := by
  induction before with
  | nil =>
      obtain ⟨above, below, sorted, rest, higher, lower⟩ := mergeSort_cons score a after
      refine ⟨above, below, ?_, ?_, fun b member => Int.le_of_lt (higher b member), lower,
        Nat.zero_le _⟩
      · rw [List.nil_append, rank_eq_mergeSort, sorted]
      · rw [List.nil_append, rank_eq_mergeSort, rest]
  | cons p before ih =>
      obtain ⟨above, below, withItem, without, higher, lower, count⟩ := ih
      -- A new first item goes above the given one exactly if it does not score lower.
      by_cases least : score a ≤ score p
      · have lower' : ∀ b ∈ a :: below, score b ≤ score p := by
          intro b member
          rcases List.mem_cons.mp member with rfl | member
          · exact least
          · exact Int.le_trans (lower b member) least
        refine ⟨insertRanked score p above, below, ?_, ?_, ?_, lower, ?_⟩
        · rw [List.cons_append, rank, withItem, insertRanked_append_of_le score above lower']
        · rw [List.cons_append, rank, without, insertRanked_append_of_le score above
            fun b member => lower' b (List.mem_cons_of_mem a member)]
        · intro b member
          rcases List.mem_cons.mp ((insertRanked_perm score p above).mem_iff.mp member) with
            rfl | member
          · exact least
          · exact higher b member
        · have fits : scoresAtLeast score p a = true := decide_eq_true least
          rw [List.filter_cons, if_pos fits, (insertRanked_perm score p above).length_eq]
          exact Nat.succ_le_succ count
      · have less : score p < score a := Int.not_le.mp least
        have higher' : ∀ b ∈ above, score p < score b :=
          fun b member => Int.lt_of_lt_of_le less (higher b member)
        refine ⟨above, insertRanked score p below, ?_, ?_, higher, ?_, ?_⟩
        · rw [List.cons_append, rank, withItem, insertRanked_append_of_lt score _ higher',
            insertRanked, if_neg least]
        · rw [List.cons_append, rank, without, insertRanked_append_of_lt score _ higher']
        · intro b member
          rcases List.mem_cons.mp ((insertRanked_perm score p below).mem_iff.mp member) with
            rfl | member
          · exact Int.le_of_lt less
          · exact lower b member
        · have fails : ¬ scoresAtLeast score p a = true :=
            fun fits => least (of_decide_eq_true fits)
          rwa [List.filter_cons, if_neg fails]

/-- An item is not among the first ones of a ranking if enough others come before it in the list
and do not score lower. -/
theorem take_rank_middle {k : Nat} (a : α) (before after : List α)
    (enough : k ≤ (before.filter (scoresAtLeast score · a)).length) :
    (rank score (before ++ a :: after)).take k = (rank score (before ++ after)).take k := by
  obtain ⟨above, below, withItem, without, -, -, count⟩ := rank_middle score a before after
  have fits : k ≤ above.length := Nat.le_trans enough count
  rw [withItem, without, List.take_append_of_le_length fits, List.take_append_of_le_length fits]

/-- Items are not among the first ones of a ranking if enough others come directly before them and
do not score lower. -/
theorem take_rank_tail {k : Nat} (before top tail after : List α) (enough : k ≤ top.length)
    (lower : ∀ t ∈ tail, ∀ b ∈ top, score t ≤ score b) :
    (rank score (before ++ top ++ tail ++ after)).take k =
      (rank score (before ++ top ++ after)).take k := by
  induction tail with
  | nil => rw [List.append_nil]
  | cons t tail ih =>
      have all : top.filter (scoresAtLeast score · t) = top :=
        List.filter_eq_self.mpr fun b member =>
          decide_eq_true (lower t List.mem_cons_self b member)
      have count : k ≤ ((before ++ top).filter (scoresAtLeast score · t)).length := by
        rw [List.filter_append, all, List.length_append]
        exact Nat.le_add_left_of_le enough
      rw [List.append_assoc (before ++ top), List.cons_append, take_rank_middle score t _ _ count,
        ← List.append_assoc,
        ih fun u member => lower u (List.mem_cons_of_mem t member)]

/-- Of a ranked list no more than the first items matter. -/
theorem take_rank_cut {k : Nat} (before after : List α) {as : List α} (ranked : Ranked score as) :
    (rank score (before ++ as ++ after)).take k =
      (rank score (before ++ as.take k ++ after)).take k := by
  rcases Nat.le_total as.length k with short | long
  · rw [List.take_of_length_le short]
  · have parts : (as.take k ++ as.drop k).Pairwise fun a b => score b ≤ score a := by
      rwa [List.take_append_drop]
    have enough : k ≤ (as.take k).length := Nat.le_of_eq (List.length_take_of_le long).symm
    have cut := take_rank_tail score before (as.take k) (as.drop k) after enough
      fun t tail b top => (List.pairwise_append.mp parts).2.2 b top t tail
    rwa [List.append_assoc before, List.take_append_drop] at cut

/-- For the first items of a ranking of ranked lists put together, as many of each are enough. -/
theorem take_rank_flatMap {ι : Type} {k : Nat} (f : ι → List α) (is : List ι)
    (ranked : ∀ i ∈ is, Ranked score (f i)) :
    (rank score (is.flatMap f)).take k =
      (rank score (is.flatMap fun i => (f i).take k)).take k := by
  -- The lists are cut one after the other; those cut already stand before the rest.
  suffices general : ∀ before : List α, (rank score (before ++ is.flatMap f)).take k =
      (rank score (before ++ is.flatMap fun i => (f i).take k)).take k from general []
  induction is with
  | nil => exact fun _ => rfl
  | cons i is ih =>
      intro before
      have rest := ih (fun j member => ranked j (List.mem_cons_of_mem i member))
        (before ++ (f i).take k)
      rw [List.flatMap_cons, List.flatMap_cons, ← List.append_assoc, ← List.append_assoc,
        take_rank_cut score before _ (ranked i List.mem_cons_self), rest]

/-- A ranking of definitions is ranked, and a query without words has an empty one. -/
theorem ranked_ranking (definitions : List Definition) (query : Text) :
    Ranked Hit.score (ranking definitions query) := by
  unfold ranking
  simp only
  split
  · exact .nil
  · exact ranked_rank Hit.score _

end ApiReference.Declaration
