import ApiReference.Proofs.Text.Pattern

/-!
# Which match is preferred

Rules for the first of the ways in which a pattern goes on from a match so far, for patterns that
need not be given up again: what each part prefers, all of them prefer together. Main statements:
`prefers_many_one`, `Prefers.seq`, `find_of_prefers`.
-/

namespace ApiReference.Text

/-- A match so far, gone on over a text. -/
def Hit.over (h : Hit) (w rest : Text) : Hit :=
  { h with taken := w.reverse ++ h.taken, before := w.getLast?.or h.before, rest := rest }

section
variable (h : Hit) (u v rest rest' : Text)

theorem Hit.over_nil : h.over [] h.rest = h := rfl

theorem Hit.over_over : (h.over u rest).over v rest' = h.over (u ++ v) rest' := by
  simp only [Hit.over, List.reverse_append, List.append_assoc, List.getLast?_append, Option.or_assoc]

end

namespace Pattern

/-- A pattern goes on from a match so far in this way first. -/
def Prefers (p : Pattern) (h h' : Hit) : Prop := (ends p h).head? = Option.some h'

theorem Prefers.reads {p : Pattern} {h h' : Hit} (prefers : Prefers p h h') : Reads p h h' :=
  .of_mem_ends (List.mem_of_mem_head? prefers)

section
variable {p : Char → Bool} {a b : Pattern} {h m h' : Hit} {c : Char} {rest w : Text}

theorem prefers_one (next : h.rest = c :: rest) (fits : p c = true) :
    Prefers (.one p) h (h.over [c] rest) := by
  simp only [Prefers, ends, next, if_pos fits]
  rfl

theorem prefers_boundary (edge : isBoundary h.before h.rest = true) : Prefers .boundary h h := by
  simp only [Prefers, ends, if_pos edge]
  rfl

theorem prefers_empty (h : Hit) : Prefers .empty h h := rfl

theorem Prefers.seq (first : Prefers a h m) (second : Prefers b m h') :
    Prefers (.seq a b) h h' := by
  obtain ⟨others, ways⟩ := List.head?_eq_some_iff.1 first
  simp only [Prefers, ends, ways, List.flatMap_cons]
  rw [List.head?_append, show (ends b m).head? = _ from second, Option.some_or]

theorem prefers_opt (prefers : Prefers a h h') : Prefers (.opt a) h h' := by
  simp only [Prefers, opt, ends]
  rw [List.head?_append, show (ends a h).head? = _ from prefers, Option.some_or]

theorem prefers_opt_none (none : ends a h = []) : Prefers (.opt a) h h := by
  simp only [Prefers, opt, ends, none]
  rfl

theorem Prefers.marked (prefers : Prefers a { h with taken := [] } m) :
    Prefers (.marked a) h
      { m with taken := m.taken ++ h.taken, mark := Option.some m.text } := by
  simp only [Prefers, ends, List.head?_map, show (ends a _).head? = _ from prefers]
  rfl

theorem ends_one_eq_nil (other : ∀ c ∈ h.rest.head?, p c = false) : ends (.one p) h = [] := by
  simp only [ends]
  split
  · next c rest next =>
      rw [next] at other
      rw [if_neg (by rw [other c rfl]; exact Bool.false_ne_true)]
  · rfl

theorem ends_seq_eq_nil (none : ends a h = []) : ends (.seq a b) h = [] := by
  simp only [ends, none, List.flatMap_nil]

theorem repeatGreedy_one (each : ∀ c ∈ w, p c = true) (other : ∀ c ∈ rest.head?, p c = false)
    {n : Nat} (enough : w.length ≤ n) {h : Hit} (next : h.rest = w ++ rest) :
    (repeatGreedy (ends (.one p)) n h).head? = Option.some (h.over w rest) := by
  induction w generalizing n h with
  | nil =>
      have stays : h.over [] rest = h := by rw [← h.over_nil, next]; rfl
      have nothing : ends (.one p) h = [] := ends_one_eq_nil (by rwa [next])
      rw [stays]
      cases n with
      | zero => rfl
      | succ n =>
          rw [repeatGreedy, nothing]
          rfl
  | cons c w ih =>
      obtain ⟨first, each⟩ := List.forall_mem_cons.1 each
      obtain ⟨n, rfl⟩ : ∃ k, n = k + 1 := ⟨n - 1, by rw [List.length_cons] at enough; omega⟩
      have step : ends (.one p) h = [h.over [c] (w ++ rest)] := by
        simp only [ends, next, List.cons_append, if_pos first]
        rfl
      have shorter : (h.over [c] (w ++ rest)).rest.length < h.rest.length := by
        rw [next]
        exact Nat.lt_succ_self _
      have further := ih each (Nat.le_of_succ_le_succ enough) (h := h.over [c] (w ++ rest)) rfl
      rw [h.over_over] at further
      have kept : [h.over [c] (w ++ rest)].filter (fun next => next.rest.length < h.rest.length) =
          [h.over [c] (w ++ rest)] :=
        List.filter_eq_self.2 (List.forall_mem_singleton.2 (decide_eq_true shorter))
      rw [repeatGreedy, step, kept, List.flatMap_singleton, List.head?_append, further,
        Option.some_or]
      rfl

/-- A repetition takes all there is. -/
theorem prefers_many_one (next : h.rest = w ++ rest) (each : ∀ c ∈ w, p c = true)
    (other : ∀ c ∈ rest.head?, p c = false) : Prefers (.many (.one p)) h (h.over w rest) := by
  refine repeatGreedy_one each other ?_ next
  rw [next, List.length_append]
  exact Nat.le_add_right _ _

theorem prefers_some_one (next : h.rest = w ++ rest) (nonempty : w ≠ [])
    (each : ∀ c ∈ w, p c = true) (other : ∀ c ∈ rest.head?, p c = false) :
    Prefers (.some (.one p)) h (h.over w rest) := by
  cases w with
  | nil => exact absurd rfl nonempty
  | cons c w =>
      obtain ⟨first, each⟩ := List.forall_mem_cons.1 each
      have more := prefers_many_one (h := h.over [c] (w ++ rest)) rfl each other
      rw [h.over_over] at more
      exact (prefers_one next first).seq more

end

/-- A search passes over places where a pattern does not match. -/
theorem findAfter_append {p : Pattern} {before : Option Char} {lead : Text} (rest : Text)
    (earlier : ∀ a c b, lead = a ++ c :: b →
      ends p (.start (a.getLast?.or before) (c :: b ++ rest)) = []) :
    findAfter p before (lead ++ rest) = findAfter p (lead.getLast?.or before) rest := by
  induction lead generalizing before with
  | nil => rfl
  | cons c lead ih =>
      have none : ends p (.start before (c :: (lead ++ rest))) = [] := earlier [] c lead rfl
      rw [List.cons_append, findAfter, none, getLast?_cons_or]
      refine ih fun a d b split => ?_
      rw [← getLast?_cons_or]
      exact earlier (c :: a) d b (by rw [split, List.cons_append])

/-- Where a pattern does not match at earlier places, a search finds what it prefers at a place. -/
theorem findAfter_of_prefers {p : Pattern} {before : Option Char} {lead rest : Text} {h : Hit}
    (earlier : ∀ a c b, lead = a ++ c :: b →
      ends p (.start (a.getLast?.or before) (c :: b ++ rest)) = [])
    (here : Prefers p (.start (lead.getLast?.or before) rest) h) :
    findAfter p before (lead ++ rest) = Option.some h := by
  have here : (ends p (.start (lead.getLast?.or before) rest)).head? = Option.some h := here
  rw [findAfter_append rest earlier]
  cases rest with
  | nil => rw [findAfter, here]
  | cons c rest => rw [findAfter, here]

theorem find_of_prefers {p : Pattern} {lead rest : Text} {h : Hit}
    (earlier : ∀ a c b, lead = a ++ c :: b → ends p (.start a.getLast? (c :: b ++ rest)) = [])
    (here : Prefers p (.start lead.getLast? rest) h) : find p (lead ++ rest) = Option.some h := by
  refine findAfter_of_prefers (fun a c b split => ?_) ?_
  · rw [Option.or_none]
    exact earlier a c b split
  · rwa [Option.or_none]

/-- A search finds something where a pattern matches somewhere. -/
theorem exists_findAfter {p : Pattern} {before : Option Char} {lead rest : Text} {h : Hit}
    (reads : Reads p (.start (lead.getLast?.or before) rest) h) :
    ∃ h, findAfter p before (lead ++ rest) = Option.some h := by
  induction lead generalizing before with
  | nil =>
      have some : ((ends p (.start before rest)).head?).isSome :=
        List.isSome_head?.2 (List.ne_nil_of_mem reads.mem_ends)
      obtain ⟨h, found⟩ := Option.isSome_iff_exists.1 some
      refine ⟨h, ?_⟩
      rw [List.nil_append]
      cases rest with
      | nil => rw [findAfter, found]
      | cons c rest => rw [findAfter, found]
  | cons c lead ih =>
      rw [getLast?_cons_or] at reads
      obtain ⟨h, found⟩ := ih reads
      rw [List.cons_append, findAfter, found]
      split
      · exact ⟨_, rfl⟩
      · exact ⟨h, rfl⟩

theorem exists_find {p : Pattern} {lead rest : Text} {h : Hit}
    (reads : Reads p (.start lead.getLast? rest) h) :
    ∃ h, find p (lead ++ rest) = Option.some h := by
  rw [← Option.or_none (o := lead.getLast?)] at reads
  exact exists_findAfter reads

end Pattern
end ApiReference.Text
