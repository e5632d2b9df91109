import ApiReference.Proofs.Text.Pattern

/-!
# What follows a text

A pattern matches within a text in the same ways whatever follows it, if that does not go on with a
word. If all its matches end where a word begins or ends, and what follows has no words at all, then
there are no other matches, and a search finds the same. Main statements: `ends_followed`,
`Closes.find_append`.
-/

namespace ApiReference.Text

/-- A match so far in a text that more follows. -/
def Hit.followed (h : Hit) (t : Text) : Hit := { h with rest := h.rest ++ t }

/-- Whether a match so far stays within the text that others follow. -/
def Hit.isWithin (t : Text) (h : Hit) : Bool := t.length ≤ h.rest.length

theorem Hit.isWithin_followed (h : Hit) (t : Text) : (h.followed t).isWithin t = true := by
  rw [isWithin, followed, List.length_append, decide_eq_true_iff]
  exact Nat.le_add_left ..

namespace Pattern

theorem Reads.length_le {p : Pattern} {h h' : Hit} (reads : Reads p h h') :
    h'.rest.length ≤ h.rest.length := by
  obtain ⟨w, passes⟩ := reads.passes
  rw [passes.rest, List.length_append]
  exact Nat.le_add_left ..

section
variable {t : Text}

/-- What has left a text does not come back. -/
theorem Reads.not_isWithin {p : Pattern} {h h' : Hit} (reads : Reads p h h')
    (outside : h.isWithin t = false) : h'.isWithin t = false := by
  have shorter := reads.length_le
  rw [Hit.isWithin, decide_eq_false_iff_not] at outside ⊢
  omega

/-- What is read from outside a text leaves it. -/
theorem filter_within_eq_nil {p : Pattern} {h : Hit} {l : List Hit} (reads : ∀ h' ∈ l, Reads p h h')
    (outside : h.isWithin t = false) : l.filter (Hit.isWithin t) = [] := by
  rw [List.filter_eq_nil_iff]
  intro h' member
  rw [(reads h' member).not_isWithin outside]
  exact Bool.false_ne_true

theorem flatMap_filter_within {α : Type} {l : List Hit} {f : Hit → List α}
    (outside : ∀ h ∈ l, h.isWithin t = false → f h = []) :
    l.flatMap f = (l.filter (Hit.isWithin t)).flatMap f := by
  induction l with
  | nil => rfl
  | cons h l ih =>
      obtain ⟨first, rest⟩ := List.forall_mem_cons.1 outside
      rw [List.flatMap_cons, ih rest, List.filter_cons]
      cases within : h.isWithin t with
      | true => rfl
      | false =>
          rw [first within]
          rfl

theorem isBoundary_append (apart : ∀ c ∈ t.head?, isWordChar c = false) (before : Option Char)
    (rest : Text) : isBoundary before (rest ++ t) = isBoundary before rest := by
  unfold isBoundary
  cases rest with
  | cons c rest => rfl
  | nil =>
      rw [List.nil_append]
      cases first : t.head? with
      | none => rfl
      | some c => rw [Option.any_some, apart c first, List.head?_nil, Option.any_none]

theorem filter_within_singleton (h : Hit) :
    [h.followed t].filter (Hit.isWithin t) = [h].map (·.followed t) :=
  List.filter_eq_self.2 (List.forall_mem_singleton.2 (h.isWithin_followed t))

theorem repeatGreedy_followed {p : Pattern}
    (each : ∀ h : Hit, (ends p (h.followed t)).filter (Hit.isWithin t) =
      (ends p h).map (·.followed t)) (n : Nat) (h : Hit) :
    (repeatGreedy (ends p) n (h.followed t)).filter (Hit.isWithin t) =
      (repeatGreedy (ends p) n h).map (·.followed t) := by
  induction n generalizing h with
  | zero => exact filter_within_singleton h
  | succ n ih =>
      have shorter (m : Hit) : decide ((m.followed t).rest.length < (h.followed t).rest.length) =
          decide (m.rest.length < h.rest.length) := by
        simp only [Hit.followed, List.length_append, Nat.add_lt_add_iff_right]
      have leaves (m : Hit) : m.isWithin t = false →
          (repeatGreedy (ends p) n m).filter (Hit.isWithin t) = [] :=
        filter_within_eq_nil (p := .many p) fun m' => .of_mem_repeatGreedy .of_mem_ends
      rw [repeatGreedy, repeatGreedy, List.filter_append, filter_within_singleton, List.map_append,
        List.filter_flatMap, flatMap_filter_within fun m _ => leaves m, List.filter_comm, each,
        List.filter_map, List.flatMap_map, List.map_flatMap]
      simp only [Function.comp_def, shorter, ih]

/-- The ways to match within a text are the same, whatever follows it. -/
theorem ends_followed (apart : ∀ c ∈ t.head?, isWordChar c = false) (p : Pattern) (h : Hit) :
    (ends p (h.followed t)).filter (Hit.isWithin t) = (ends p h).map (·.followed t) := by
  induction p generalizing h with
  | one p =>
      obtain ⟨taken, mark, before, rest⟩ := h
      cases rest with
      | nil =>
          -- The text has ended: a character that follows it may be read, but leaves the text.
          rw [List.filter_eq_nil_iff.2]
          · rfl
          · intro h' member
            obtain ⟨c, rest, next, -, rfl⟩ := reads_one.1 (.of_mem_ends member)
            have next : t = c :: rest := next
            rw [next, Hit.isWithin, decide_eq_true_iff, List.length_cons]
            exact Nat.not_succ_le_self _
      | cons c rest =>
          simp only [ends, Hit.followed, List.cons_append]
          split
          · exact filter_within_singleton ⟨c :: taken, mark, Option.some c, rest⟩
          · rfl
  | boundary =>
      simp only [ends]
      rw [show isBoundary (h.followed t).before (h.followed t).rest = _ from
        isBoundary_append apart h.before h.rest]
      split
      · exact filter_within_singleton h
      · rfl
  | empty => exact filter_within_singleton h
  | seq a b iha ihb =>
      have leaves (m : Hit) : m.isWithin t = false → (ends b m).filter (Hit.isWithin t) = [] :=
        filter_within_eq_nil fun _ => .of_mem_ends
      simp only [ends]
      rw [List.filter_flatMap, flatMap_filter_within fun m _ => leaves m, iha, List.flatMap_map,
        List.map_flatMap]
      simp only [ihb]
  | alt a b iha ihb =>
      simp only [ends]
      rw [List.filter_append, iha, ihb, List.map_append]
  | many a ih =>
      simp only [ends]
      rw [repeatGreedy_followed ih, repeatGreedy_enough (ends a) _ (Nat.le_refl _)]
      rw [Hit.followed, List.length_append]
      exact Nat.le_add_right ..
  | marked a ih =>
      have inner := ih { h with taken := [] }
      simp only [ends]
      rw [List.filter_map]
      refine (congrArg (List.map _) inner).trans ?_
      rw [List.map_map, List.map_map]
      rfl

end

/-- Whether every match ends where a word begins or ends. -/
def Closes (p : Pattern) : Prop := ∀ h h' : Hit, Reads p h h' → isBoundary h'.before h'.rest = true

theorem closes_all (ps : List Pattern) : Closes (.all (ps ++ [.boundary])) := by
  induction ps with
  | nil =>
      intro h h' reads
      obtain ⟨m, edge, last⟩ := reads_all_cons.1 reads
      obtain ⟨edge, rfl⟩ := reads_boundary.1 edge
      obtain rfl := reads_all_nil.1 last
      exact edge
  | cons p ps ih =>
      intro h h' reads
      obtain ⟨m, -, more⟩ := reads_all_cons.1 reads
      exact ih m h' more

theorem not_isBoundary {before : Option Char} {rest : Text}
    (apart : ∀ c ∈ before, isWordChar c = false) (outside : ∀ c ∈ rest.head?, isWordChar c = false) :
    isBoundary before rest = false := by
  have none {o : Option Char} (all : ∀ c ∈ o, isWordChar c = false) : o.any isWordChar = false := by
    cases o with
    | none => rfl
    | some c => exact all c rfl
  rw [isBoundary, none apart, none outside]
  rfl

section
variable {c : Char} (word : isWordChar c = true)
include word

theorem isBoundary_cons_iff {before : Option Char} {rest : Text} :
    isBoundary before (c :: rest) = true ↔ ∀ d ∈ before, isWordChar d = false := by
  cases before with
  | none => simp [isBoundary, word]
  | some d => simp [isBoundary, word]

theorem isBoundary_some_iff {rest : Text} :
    isBoundary (Option.some c) rest = true ↔ ∀ d ∈ rest.head?, isWordChar d = false := by
  cases rest with
  | nil => simp [isBoundary, word]
  | cons d rest => simp [isBoundary, word]

end

namespace Closes
variable {p : Pattern} (closes : Closes p) {t : Text} (outside : ∀ c ∈ t, isWordChar c = false)
include closes outside

/-- Where what follows a text has no words, nothing matches that leaves the text. -/
theorem isWithin {h h' : Hit} (reads : Reads p (h.followed t) h') : h'.isWithin t = true := by
  obtain ⟨w, passes⟩ := reads.passes
  rcases List.append_eq_append_iff.1 passes.rest with ⟨u, rfl, rest⟩ | ⟨u, -, rest⟩
  · cases last : u.getLast? with
    | none =>
        obtain rfl := List.getLast?_eq_none_iff.1 last
        rw [Hit.isWithin, decide_eq_true_iff, rest]
        exact Nat.le_refl _
    | some c =>
        have edge := closes _ _ reads
        rw [not_isBoundary] at edge
        · cases edge
        · intro d before
          rw [passes.before, List.getLast?_append, last] at before
          obtain rfl : c = d := Option.some.inj before
          exact outside c (by rw [rest]; exact List.mem_append_left _ (List.mem_of_getLast? last))
        · intro d first
          exact outside d (by rw [rest]; exact List.mem_append_right _ (List.mem_of_mem_head? first))
  · rw [Hit.isWithin, decide_eq_true_iff, rest, List.length_append]
    exact Nat.le_add_left ..

theorem ends_followed (h : Hit) : ends p (h.followed t) = (ends p h).map (·.followed t) := by
  rw [← Pattern.ends_followed (fun c first => outside c (List.mem_of_mem_head? first)) p h]
  exact (List.filter_eq_self.2 fun h' member =>
    closes.isWithin outside (.of_mem_ends member)).symm

theorem findAfter_eq_none {before : Option Char} (apart : ∀ c ∈ before, isWordChar c = false) :
    findAfter p before t = none := by
  cases found : findAfter p before t with
  | none => rfl
  | some h =>
      obtain ⟨lead, rest, rfl, reads⟩ := findAfter_eq_some found
      obtain ⟨w, passes⟩ := reads.passes
      have split : rest = w ++ h.rest := passes.rest
      rw [split] at outside
      have edge := closes _ _ reads
      rw [not_isBoundary] at edge
      · cases edge
      · intro c last
        rw [passes.before, Hit.start, ← Option.or_assoc, ← List.getLast?_append] at last
        cases ends : (lead ++ w).getLast? with
        | none =>
            rw [ends] at last
            exact apart c last
        | some d =>
            rw [ends] at last
            obtain rfl : d = c := Option.some.inj last
            refine outside d ?_
            rw [← List.append_assoc]
            exact List.mem_append_left _ (List.mem_of_getLast? ends)
      · intro c first
        exact outside c (List.mem_append_right _ (List.mem_append_right _
          (List.mem_of_mem_head? first)))

theorem findAfter_append (before : Option Char) (s : Text) :
    findAfter p before (s ++ t) = (findAfter p before s).map (·.followed t) := by
  induction s generalizing before with
  | nil =>
      have here := closes.ends_followed outside (.start before [])
      have first : (ends p (.start before t)).head? =
          (findAfter p before []).map (·.followed t) := by
        rw [findAfter, ← List.head?_map, ← here]
        rfl
      cases t with
      | nil => exact first
      | cons c t =>
          obtain ⟨apart, outside⟩ := List.forall_mem_cons.1 outside
          have none : findAfter p (Option.some c) t = none :=
            closes.findAfter_eq_none outside fun d same => Option.some.inj same ▸ apart
          generalize findAfter p before [] = found at first
          rw [List.nil_append, findAfter, first, none]
          cases found <;> rfl
  | cons c s ih =>
      have here := closes.ends_followed outside (.start before (c :: s))
      rw [List.cons_append, findAfter, findAfter, ih]
      rw [show ends p (.start before (c :: (s ++ t))) = _ from here, List.head?_map]
      cases (ends p (.start before (c :: s))).head? with
      | none => rfl
      | some h => rfl

theorem find_append (s : Text) : find p (s ++ t) = (find p s).map (·.followed t) :=
  closes.findAfter_append outside none s

end Closes
end Pattern
end ApiReference.Text
