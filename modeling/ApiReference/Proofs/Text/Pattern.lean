import ApiReference.Text.Pattern
import Mathlib.Data.List.Forall2

/-!
# What patterns match

The ways in which a pattern goes on from a match so far are given by rules, one or two for each kind
of pattern, without regard to preference. The list of ways to match holds exactly these, and a
search finds one of them. Main statements: `mem_ends_iff`, `find_eq_some`.
-/

namespace ApiReference.Text

namespace Hit

/-- A match so far goes on over a text. -/
structure Passes (h : Hit) (w : Text) (h' : Hit) : Prop where
  taken : h'.taken = w.reverse ++ h.taken
  rest : h.rest = w ++ h'.rest
  before : h'.before = w.getLast?.or h.before

namespace Passes
variable {h m h' : Hit} {u v : Text}

theorem refl (h : Hit) : h.Passes [] h := ⟨rfl, rfl, rfl⟩

/-- One character is taken. -/
theorem char {c : Char} {rest : Text} (next : h.rest = c :: rest) :
    h.Passes [c] { h with taken := c :: h.taken, before := some c, rest := rest } :=
  ⟨rfl, next, rfl⟩

theorem trans (first : h.Passes u m) (second : m.Passes v h') : h.Passes (u ++ v) h' where
  taken := by rw [second.taken, first.taken, List.reverse_append, List.append_assoc]
  rest := by rw [first.rest, second.rest, List.append_assoc]
  before := by
    rw [second.before, first.before, List.getLast?_append, Option.or_assoc]

end Passes
end Hit

theorem mem_repeatGreedy_self (step : Hit → List Hit) (n : Nat) (h : Hit) :
    h ∈ repeatGreedy step n h := by
  cases n with
  | zero => exact List.mem_singleton_self h
  | succ n => exact List.mem_append_right _ (List.mem_singleton_self h)

/-- As many repetitions as there are characters are enough. -/
theorem repeatGreedy_enough (step : Hit → List Hit) {n n' : Nat} {h : Hit}
    (enough : h.rest.length ≤ n) (enough' : h.rest.length ≤ n') :
    repeatGreedy step n h = repeatGreedy step n' h := by
  have stuck {k : Nat} {h : Hit} (ended : h.rest.length ≤ 0) : repeatGreedy step k h = [h] := by
    cases k with
    | zero => rfl
    | succ k =>
        have nothing : (step h).filter (fun next => next.rest.length < h.rest.length) = [] := by
          rw [List.filter_eq_nil_iff]
          intro next _ shorter
          have := of_decide_eq_true shorter
          omega
        rw [repeatGreedy, nothing, List.flatMap_nil, List.nil_append]
  induction n generalizing n' h with
  | zero => rw [stuck enough, stuck enough]
  | succ n ih =>
      cases n' with
      | zero => rw [stuck enough', stuck enough']
      | succ n' =>
          have same : ∀ next ∈ (step h).filter fun next => next.rest.length < h.rest.length,
              repeatGreedy step n next = repeatGreedy step n' next := by
            intro next member
            have shorter := of_decide_eq_true (List.mem_filter.mp member).2
            exact ih (by omega) (by omega)
          rw [repeatGreedy, repeatGreedy, List.flatMap_def, List.flatMap_def,
            List.map_congr_left same]

namespace Pattern

/-- How a pattern goes on from a match so far. -/
inductive Reads : Pattern → Hit → Hit → Prop where
  | one {p : Char → Bool} {taken : Text} {mark : Option Text} {before : Option Char} {c : Char}
      {rest : Text} (fits : p c = true) :
      Reads (.one p) ⟨taken, mark, before, c :: rest⟩ ⟨c :: taken, mark, Option.some c, rest⟩
  | boundary {h : Hit} (edge : isBoundary h.before h.rest = true) : Reads .boundary h h
  | empty {h : Hit} : Reads .empty h h
  | seq {a b : Pattern} {h m h' : Hit} (first : Reads a h m) (second : Reads b m h') :
      Reads (.seq a b) h h'
  | preferred {a b : Pattern} {h h' : Hit} (reads : Reads a h h') : Reads (.alt a b) h h'
  | other {a b : Pattern} {h h' : Hit} (reads : Reads b h h') : Reads (.alt a b) h h'
  | stop {a : Pattern} {h : Hit} : Reads (.many a) h h
  /-- A repetition takes a character at least. -/
  | again {a : Pattern} {h m h' : Hit} (first : Reads a h m)
      (shorter : m.rest.length < h.rest.length) (more : Reads (.many a) m h') :
      Reads (.many a) h h'
  | marked {a : Pattern} {h m : Hit} (reads : Reads a { h with taken := [] } m) :
      Reads (.marked a) h
        { m with taken := m.taken ++ h.taken, mark := Option.some m.text }

theorem Reads.of_mem_repeatGreedy {a : Pattern}
    (each : ∀ {h h'}, h' ∈ ends a h → Reads a h h') {n : Nat} {h h' : Hit}
    (member : h' ∈ repeatGreedy (ends a) n h) : Reads (.many a) h h' := by
  induction n generalizing h with
  | zero =>
      obtain rfl := List.mem_singleton.mp member
      exact .stop
  | succ n ih =>
      rcases List.mem_append.mp member with further | last
      · obtain ⟨m, kept, further⟩ := List.mem_flatMap.mp further
        obtain ⟨step, shorter⟩ := List.mem_filter.mp kept
        exact .again (each step) (of_decide_eq_true shorter) (ih further)
      · obtain rfl := List.mem_singleton.mp last
        exact .stop

theorem Reads.of_mem_ends {p : Pattern} {h h' : Hit} (member : h' ∈ ends p h) : Reads p h h' := by
  induction p generalizing h h' with
  | one p =>
      obtain ⟨taken, mark, before, rest⟩ := h
      cases rest with
      | nil => exact nomatch member
      | cons c rest =>
          simp only [ends] at member
          split at member
          · next fits =>
              obtain rfl := List.mem_singleton.mp member
              exact .one fits
          · exact nomatch member
  | boundary =>
      simp only [ends] at member
      split at member
      · next edge =>
          obtain rfl := List.mem_singleton.mp member
          exact .boundary edge
      · exact nomatch member
  | empty =>
      obtain rfl := List.mem_singleton.mp member
      exact .empty
  | seq a b iha ihb =>
      obtain ⟨m, first, second⟩ := List.mem_flatMap.mp member
      exact .seq (iha first) (ihb second)
  | alt a b iha ihb =>
      rcases List.mem_append.mp member with preferred | other
      · exact .preferred (iha preferred)
      · exact .other (ihb other)
  | many a ih => exact .of_mem_repeatGreedy ih member
  | marked a ih =>
      obtain ⟨m, inner, rfl⟩ := List.mem_map.mp member
      exact .marked (ih inner)

theorem Reads.mem_ends {p : Pattern} {h h' : Hit} (reads : Reads p h h') : h' ∈ ends p h := by
  induction reads with
  | one fits =>
      simp only [ends, if_pos fits]
      exact List.mem_singleton_self _
  | boundary edge =>
      simp only [ends, if_pos edge]
      exact List.mem_singleton_self _
  | empty => exact List.mem_singleton_self _
  | seq first second ih ih' => exact List.mem_flatMap.mpr ⟨_, ih, ih'⟩
  | preferred reads ih => exact List.mem_append_left _ ih
  | other reads ih => exact List.mem_append_right _ ih
  | stop => exact mem_repeatGreedy_self _ _ _
  | @again a h m h' first shorter more ih ih' =>
      obtain ⟨n, length⟩ : ∃ n, h.rest.length = n + 1 := ⟨h.rest.length - 1, by omega⟩
      have further : h' ∈ repeatGreedy (ends a) n m := by
        rw [repeatGreedy_enough (ends a) (by omega) (Nat.le_refl m.rest.length)]
        exact ih'
      have kept : m ∈ (ends a h).filter fun next => next.rest.length < h.rest.length :=
        List.mem_filter.mpr ⟨ih, decide_eq_true shorter⟩
      rw [ends, length, repeatGreedy]
      exact List.mem_append_left _ (List.mem_flatMap.mpr ⟨m, kept, further⟩)
  | marked reads ih => exact List.mem_map.mpr ⟨_, ih, rfl⟩

/-- The ways to match are those that the rules give. -/
theorem mem_ends_iff {p : Pattern} {h h' : Hit} : h' ∈ ends p h ↔ Reads p h h' :=
  ⟨Reads.of_mem_ends, Reads.mem_ends⟩

section
variable {p : Char → Bool} {a b : Pattern} {h h' : Hit}

theorem reads_one : Reads (.one p) h h' ↔ ∃ c rest, h.rest = c :: rest ∧ p c = true ∧
    h' = { h with taken := c :: h.taken, before := Option.some c, rest := rest } := by
  constructor
  · intro reads
    cases reads with
    | one fits => exact ⟨_, _, rfl, fits, rfl⟩
  · rintro ⟨c, rest, next, fits, rfl⟩
    obtain ⟨taken, mark, before, _⟩ := h
    obtain rfl : _ = c :: rest := next
    exact .one fits

theorem reads_boundary :
    Reads .boundary h h' ↔ isBoundary h.before h.rest = true ∧ h' = h := by
  constructor
  · intro reads
    cases reads with
    | boundary edge => exact ⟨edge, rfl⟩
  · rintro ⟨edge, rfl⟩
    exact .boundary edge

theorem reads_seq : Reads (.seq a b) h h' ↔ ∃ m, Reads a h m ∧ Reads b m h' := by
  constructor
  · intro reads
    cases reads with
    | seq first second => exact ⟨_, first, second⟩
  · rintro ⟨m, first, second⟩
    exact .seq first second

theorem reads_all_nil : Reads (.all []) h h' ↔ h' = h := by
  constructor
  · intro reads
    cases reads with
    | empty => rfl
  · rintro rfl
    exact .empty

theorem reads_all_cons {ps : List Pattern} :
    Reads (.all (a :: ps)) h h' ↔ ∃ m, Reads a h m ∧ Reads (.all ps) m h' := reads_seq

theorem reads_marked : Reads (.marked a) h h' ↔ ∃ m, Reads a { h with taken := [] } m ∧
    h' = { m with taken := m.taken ++ h.taken, mark := Option.some m.text } := by
  constructor
  · intro reads
    cases reads with
    | marked reads => exact ⟨_, reads, rfl⟩
  · rintro ⟨m, reads, rfl⟩
    exact .marked reads

end

/-- Whatever a pattern does, it goes on over a text. -/
theorem Reads.passes {p : Pattern} {h h' : Hit} (reads : Reads p h h') : ∃ w, h.Passes w h' := by
  induction reads with
  | @one _ _ _ _ c rest _ => exact ⟨[c], .char rfl⟩
  | boundary | empty | stop => exact ⟨[], .refl _⟩
  | seq _ _ ih ih' =>
      obtain ⟨u, first⟩ := ih
      obtain ⟨v, second⟩ := ih'
      exact ⟨u ++ v, first.trans second⟩
  | preferred _ ih => exact ih
  | other _ ih => exact ih
  | again _ _ _ ih ih' =>
      obtain ⟨u, first⟩ := ih
      obtain ⟨v, second⟩ := ih'
      exact ⟨u ++ v, first.trans second⟩
  | marked _ ih =>
      obtain ⟨w, inner⟩ := ih
      exact ⟨w, by rw [inner.taken, List.append_nil], inner.rest, inner.before⟩

/-- Characters of a class, one after the other. -/
theorem Reads.many_one {p : Char → Bool} {h h' : Hit} (reads : Reads (.many (.one p)) h h') :
    ∃ w, (∀ c ∈ w, p c = true) ∧ h.Passes w h' := by
  generalize pattern : Pattern.many (.one p) = q at reads
  induction reads with
  | stop => exact ⟨[], List.forall_mem_nil _, .refl _⟩
  | again first _ _ _ ih =>
      obtain rfl := Pattern.many.inj pattern
      obtain ⟨c, rest, next, fits, rfl⟩ := reads_one.mp first
      obtain ⟨w, each, more⟩ := ih rfl
      exact ⟨c :: w, List.forall_mem_cons.mpr ⟨fits, each⟩, (Hit.Passes.char next).trans more⟩
  | _ => cases pattern

theorem Reads.some_one {p : Char → Bool} {h h' : Hit} (reads : Reads (.some (.one p)) h h') :
    ∃ c w, p c = true ∧ (∀ d ∈ w, p d = true) ∧ h.Passes (c :: w) h' := by
  obtain ⟨m, first, more⟩ := reads_seq.mp reads
  obtain ⟨c, rest, next, fits, rfl⟩ := reads_one.mp first
  obtain ⟨w, each, more⟩ := more.many_one
  exact ⟨c, w, fits, each, (Hit.Passes.char next).trans more⟩

theorem exists_reads_many_one {p : Char → Bool} {h : Hit} {w rest : Text}
    (next : h.rest = w ++ rest) (each : ∀ c ∈ w, p c = true) :
    ∃ h', Reads (.many (.one p)) h h' ∧ h'.rest = rest := by
  induction w generalizing h with
  | nil => exact ⟨h, .stop, next⟩
  | cons c w ih =>
      obtain ⟨fits, each⟩ := List.forall_mem_cons.mp each
      have first := reads_one.mpr ⟨c, w ++ rest, next, fits, rfl⟩
      obtain ⟨h', more, final⟩ := ih (h := { h with
        taken := c :: h.taken, before := Option.some c, rest := w ++ rest }) rfl each
      refine ⟨h', .again first ?_ more, final⟩
      rw [next]
      exact Nat.lt_succ_self _

/-- Given characters one after the other, each in a class of its own. -/
theorem Reads.spelled {fits : Char → Char → Bool} {letters : Text} {h h' : Hit}
    (reads : Reads (letters.foldr (fun c rest => .seq (.one (fits c)) rest) .empty) h h') :
    ∃ w, List.Forall₂ (fun x c => fits c x = true) w letters ∧ h.Passes w h' := by
  induction letters generalizing h with
  | nil =>
      cases reads
      exact ⟨[], .nil, .refl _⟩
  | cons c letters ih =>
      obtain ⟨m, first, more⟩ := reads_seq.mp reads
      obtain ⟨x, rest, next, same, rfl⟩ := reads_one.mp first
      obtain ⟨w, each, more⟩ := ih more
      exact ⟨x :: w, .cons same each, (Hit.Passes.char next).trans more⟩

theorem getLast?_cons_or (c : Char) (t : Text) (before : Option Char) :
    (c :: t).getLast?.or before = t.getLast?.or (Option.some c) := by
  rw [List.getLast?_cons]
  cases t.getLast? <;> rfl

/-- A search finds a match at some place of the text. -/
theorem findAfter_eq_some {p : Pattern} {before : Option Char} {t : Text} {h : Hit}
    (found : findAfter p before t = Option.some h) : ∃ lead rest, t = lead ++ rest ∧
      Reads p (.start (lead.getLast?.or before) rest) h := by
  induction t generalizing before with
  | nil => exact ⟨[], [], rfl, .of_mem_ends (List.mem_of_mem_head? found)⟩
  | cons c t ih =>
      rw [findAfter] at found
      split at found
      · next h' here =>
          obtain rfl := Option.some.inj found
          exact ⟨[], c :: t, rfl, .of_mem_ends (List.mem_of_mem_head? here)⟩
      · obtain ⟨lead, rest, split, reads⟩ := ih found
        refine ⟨c :: lead, rest, by rw [split, List.cons_append], ?_⟩
        rwa [getLast?_cons_or]

theorem find_eq_some {p : Pattern} {t : Text} {h : Hit} (found : find p t = Option.some h) :
    ∃ lead rest, t = lead ++ rest ∧ Reads p (.start lead.getLast? rest) h := by
  obtain ⟨lead, rest, split, reads⟩ := findAfter_eq_some found
  rw [Option.or_none] at reads
  exact ⟨lead, rest, split, reads⟩

end Pattern
end ApiReference.Text
