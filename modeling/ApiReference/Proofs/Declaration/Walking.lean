import ApiReference.Declaration.Collect
import ApiReference.Proofs.Syntax.Address
import Mathlib.Logic.Function.Iterate

/-!
# Walking with a stack

The walk over a stack of waiting trees meets the trees of a file in the order in which a visit by
recursion meets them, each of them once, and ends. What a tree contributes depends on nothing that
has been found before. Main statement: `collect_visits_each_once`.
-/

namespace ApiReference.Declaration
open ApiReference.Syntax (Tree Focus)

/-- What a tree may contribute: a declaration is one definition or one fault. -/
inductive Contributes (f : Focus) : File → Prop where
  | nothing (other : classify f = none) : Contributes f ⟨[], ownFault f.tree⟩
  | definition {d : Declared} {definition : Definition} (known : classify f = some d)
      (built : build f d = .ok definition) : Contributes f ⟨[definition], ownFault f.tree⟩
  | fault {d : Declared} {fault : Fault} (known : classify f = some d)
      (failed : build f d = .error fault) : Contributes f ⟨[], ownFault f.tree ++ [fault]⟩

theorem contributes_findings (f : Focus) : Contributes f (findings f) := by
  unfold findings
  cases known : classify f with
  | none => exact .nothing known
  | some d =>
      cases built : build f d with
      | ok definition => simpa only [built] using .definition known built
      | error fault => simpa only [built] using .fault known built

theorem length_ownFault (t : Tree) :
    (ownFault t).length = if t.kind = .unreadable ∨ t.label.missing = true then 1 else 0 := by
  by_cases unreadable : t.kind = .unreadable
  · simp [ownFault, unreadable]
  · by_cases missing : t.label.missing = true <;> simp [ownFault, unreadable, missing]

theorem mem_findings_iff {f : Focus} {definition : Definition} :
    definition ∈ (findings f).definitions ↔
      ∃ d, classify f = some d ∧ build f d = .ok definition := by
  have contributes := contributes_findings f
  generalize findings f = file at contributes
  cases contributes with
  | nothing other => simp [other]
  | definition known built => simp [known, built, eq_comm]
  | fault known failed => simp [known, failed]

theorem tree_of_classify {f : Focus} {d : Declared} (known : classify f = some d) :
    d.tree = f.tree := by
  unfold classify at known
  dsimp only at known
  split at known
  · split at known
    · cases known
    · split at known
      · cases known
        rfl
      · cases known
  · split at known
    · cases known
    · split at known <;> cases known <;> rfl

/-- What trees contribute one after the other. -/
def contributions (fs : List Focus) : File :=
  ⟨fs.flatMap fun f => (findings f).definitions, fs.flatMap fun f => (findings f).faults⟩

theorem contributions_cons (f : Focus) (fs : List Focus) :
    contributions (f :: fs) = (findings f).add (contributions fs) := rfl

theorem contributions_append (fs gs : List Focus) :
    contributions (fs ++ gs) = (contributions fs).add (contributions gs) := by
  simp only [contributions, List.flatMap_append, File.add]

theorem File.add_assoc (a b c : File) : (a.add b).add c = a.add (b.add c) := by
  simp only [File.add, List.append_assoc]

theorem File.add_nothing (a : File) : a.add (contributions []) = a := by
  simp only [contributions, File.add, List.flatMap_nil, List.append_nil]

namespace Walk

theorem step_cons (f : Focus) (stack : List Focus) (found : File) :
    step ⟨f :: stack, found⟩ = ⟨f.children ++ stack, found.add (findings f)⟩ := by
  simp only [step, push_reverse]

/-- The trees that a walk has still to visit. -/
def ahead (w : Walk) : List Focus := w.stack.flatMap fun f => Focus.visit f.above f.tree

theorem ahead_cons (f : Focus) (stack : List Focus) (found : File) :
    ahead ⟨f :: stack, found⟩ = f :: (step ⟨f :: stack, found⟩).ahead := by
  rw [step_cons]
  simp only [ahead, List.flatMap_cons, List.flatMap_append, Focus.visit_eq f, List.cons_append]

theorem length_ahead (w : Walk) : w.ahead.length = w.pending := by
  obtain ⟨stack, found⟩ := w
  induction stack with
  | nil => rfl
  | cons f stack ih =>
      have top := Focus.length_visit f.above f.tree
      rw [ahead, List.flatMap_cons, List.length_append, top]
      exact congrArg (f.tree.size + ·) ih

theorem head?_stack (w : Walk) : w.stack.head? = w.ahead.head? := by
  obtain ⟨_ | ⟨f, stack⟩, found⟩ := w
  · rfl
  · rw [ahead_cons]
    rfl

/-- A round takes the first of the trees that are left. -/
theorem ahead_step (w : Walk) : w.step.ahead = w.ahead.tail := by
  obtain ⟨_ | ⟨f, stack⟩, found⟩ := w
  · rfl
  · rw [ahead_cons, List.tail_cons]

theorem ahead_iterate (n : Nat) (w : Walk) : (step^[n] w).ahead = w.ahead.drop n := by
  induction n generalizing w with
  | zero => rfl
  | succ n ih => rw [Function.iterate_succ_apply, ih, ahead_step, List.drop_tail]

/-- What a walk comes to in the end. -/
def outcome (w : Walk) : File := w.found.add (contributions w.ahead)

/-- A round moves what one tree contributes from what is ahead to what has been found. -/
theorem outcome_step (w : Walk) : w.step.outcome = w.outcome := by
  obtain ⟨_ | ⟨f, stack⟩, found⟩ := w
  · rfl
  · rw [outcome, outcome, ahead_cons, contributions_cons, ← File.add_assoc, step_cons]

theorem outcome_iterate (n : Nat) (w : Walk) : (step^[n] w).outcome = w.outcome := by
  induction n generalizing w with
  | zero => rfl
  | succ n ih => rw [Function.iterate_succ_apply, ih, outcome_step]

theorem outcome_of_done {w : Walk} (done : w.stack = []) : w.outcome = w.found := by
  rw [outcome, ahead, done, List.flatMap_nil, File.add_nothing]

theorem finish_eq_outcome (w : Walk) : w.finish = w.outcome := by
  induction w using finish.induct with
  | case1 w done => rw [finish, dif_pos done, outcome_of_done done]
  | case2 w more ih => rw [finish, dif_neg more, ih, outcome_step]

/-- After as many rounds as trees were left nothing waits any more. -/
theorem stack_iterate_pending (w : Walk) : (step^[w.pending] w).stack = [] := by
  rw [← List.head?_eq_none_iff, head?_stack, ahead_iterate, ← length_ahead, List.drop_length]
  rfl

end Walk

/-- The trees of a file by recursion, each before its children. -/
def visited (t : Tree) : List Focus := Focus.visit [] t

theorem ahead_start (t : Tree) : (Walk.start t).ahead = visited t := List.append_nil _

theorem pending_start (t : Tree) : (Walk.start t).pending = t.size := rfl

theorem outcome_start (t : Tree) : (Walk.start t).outcome = contributions (visited t) := by
  rw [Walk.outcome, ahead_start]
  rfl

/-- A file is what the trees of a text contribute. -/
theorem collect_eq_contributions (t : Tree) : collect t = contributions (visited t) := by
  rw [collect, Walk.finish_eq_outcome, outcome_start]

theorem mem_collect_iff {t : Tree} {definition : Definition} :
    definition ∈ (collect t).definitions ↔
      ∃ f ∈ visited t, definition ∈ (findings f).definitions := by
  rw [collect_eq_contributions, contributions, List.mem_flatMap]

theorem faults_collect_eq_nil_iff {t : Tree} :
    (collect t).faults = [] ↔ ∀ f ∈ visited t, (findings f).faults = [] := by
  rw [collect_eq_contributions, contributions, List.flatMap_eq_nil_iff]

/-- The walk visits the trees of a file as the recursion does, the next one in each round, and
ends when all have been visited: each address once, in the order of the document. The file is what
these trees contribute one after the other, where a tree that is a fault by itself is one fault and
a declaration is one definition or one fault more. Whatever comes of a tree, what the trees before
and after it contribute stays the same. -/
theorem collect_visits_each_once (t : Tree) :
    (∀ n, (Walk.step^[n] (.start t)).stack.head? = (visited t)[n]?) ∧
    ((visited t).length = t.size ∧ (Walk.step^[t.size] (.start t)).stack = [] ∧
      (Walk.step^[t.size] (.start t)).found = collect t) ∧
    ((visited t).Pairwise fun f g => f.address < g.address) ∧
    (∀ path f, (Focus.root t).descend? path = some f ↔ f ∈ visited t ∧ f.address = path) ∧
    collect t = contributions (visited t) ∧
    (∀ f, Contributes f (findings f)) ∧
    (∀ s, (ownFault s).length = if s.kind = .unreadable ∨ s.label.missing = true then 1 else 0) ∧
    ∀ before f after, visited t = before ++ f :: after →
      collect t = (contributions before).add ((findings f).add (contributions after)) := by
  have file := collect_eq_contributions t
  have done := (Walk.start t).stack_iterate_pending
  rw [pending_start] at done
  refine ⟨fun n => ?_, ⟨Focus.length_visit [] t, done, ?_⟩, Focus.pairwise_visit ⟨t, []⟩,
    Focus.descend?_root t, file, contributes_findings, length_ownFault, ?_⟩
  · rw [Walk.head?_stack, Walk.ahead_iterate, ahead_start, List.head?_drop]
  · rw [← Walk.outcome_of_done done, Walk.outcome_iterate, outcome_start, file]
  · intro before f after split
    rw [file, split, contributions_append, contributions_cons]

end ApiReference.Declaration
