import ApiReference.Proofs.Declaration.Walking
import ApiReference.Proofs.Syntax.Placement
import Mathlib.Data.List.Basic
import Mathlib.Data.List.TakeWhile

/-!
# Which comments document a declaration

The comments between two statements document the later one from the last back to a directive, as many
as the limit allows. On the line where the earlier statement ends, only the comment next to that
statement is left out. Main statement: `findings_beside`.
-/

namespace ApiReference.Declaration
open ApiReference.Syntax (Tree Focus)

theorem exists_of_mem_findings {f : Focus} {definition : Definition}
    (found : definition ∈ (findings f).definitions) :
    ∃ d name, classify f = some d ∧ d.name? = some name ∧
      definition = (Documentation.ofComments (leadingComments (anchor f))).applyTo
        (d.definition name) := by
  unfold findings at found
  split at found
  · cases found
  · next d known =>
      split at found
      · next built =>
          obtain rfl := List.mem_singleton.1 found
          unfold build at built
          split at built
          · cases built
          · next name named =>
              cases built
              exact ⟨d, name, known, named, rfl⟩
      · cases found

/-- A comment that heads a file and documents nothing. -/
def isDirective (t : Tree) : Bool := Text.startsWith "/// <".toList t.text

/-- Whether a tree starts on the line where an earlier one ends. -/
def isBeside (earlier t : Tree) : Bool := earlier.stop.row == t.start.row

/-- The comments, in source order, between a focus and what stands before them in its parent. -/
structure Between (f : Focus) (earlier : Tree) (gap : List Tree) : Prop where
  before : ∃ rest, f.before = gap.reverse ++ earlier :: rest
  comments : ∀ c ∈ gap, c.isComment = true
  other : earlier.isComment = false

/-- Whether a comment is read, given those before and after it in a gap: there is room for it, no
directive is in the way, and if it starts on the line of the earlier tree, it is not next to it. -/
structure Reached (limit : Nat) (earlier : Tree) (before : List Tree) (c : Tree) (after : List Tree) :
    Prop where
  within : after.length < limit
  undirected : ∀ d ∈ c :: after, isDirective d = false
  apart : isBeside earlier c = true → before ≠ []

section
variable {n : Nat} {earlier c d : Tree} {after before rest gap : List Tree}

theorem Reached.reverse (reached : Reached n earlier before c after) :
    Reached n earlier before.reverse c after.reverse := by
  obtain ⟨within, undirected, apart⟩ := reached
  refine ⟨?_, fun d member => undirected d ?_, fun beside => ?_⟩
  · rwa [List.length_reverse]
  · rwa [List.mem_cons, List.mem_reverse, ← List.mem_cons] at member
  · rw [Ne, List.reverse_eq_nil_iff]
    exact apart beside

theorem Reached.reverse_iff :
    Reached n earlier before.reverse c after.reverse ↔ Reached n earlier before c after := by
  refine ⟨fun reached => ?_, Reached.reverse⟩
  simpa only [List.reverse_reverse] using reached.reverse

theorem Reached.cons_iff : Reached (n + 1) earlier before d (c :: after) ↔
    isDirective c = false ∧ Reached n earlier before d after := by
  constructor
  · rintro ⟨within, undirected, apart⟩
    simp only [List.forall_mem_cons] at undirected
    obtain ⟨first, plain, more⟩ := undirected
    exact ⟨plain, Nat.lt_of_succ_lt_succ within, List.forall_mem_cons.2 ⟨first, more⟩, apart⟩
  · rintro ⟨plain, within, undirected, apart⟩
    refine ⟨Nat.succ_lt_succ within, ?_, apart⟩
    simp only [List.forall_mem_cons] at undirected ⊢
    exact ⟨undirected.1, plain, undirected.2⟩

theorem Reached.nil_iff : Reached (n + 1) earlier before c [] ↔
    isDirective c = false ∧ (isBeside earlier c = true → before ≠ []) :=
  ⟨fun reached => ⟨reached.undirected c List.mem_cons_self, reached.apart⟩, fun ⟨plain, apart⟩ =>
    ⟨Nat.succ_pos n, List.forall_mem_singleton.2 plain, apart⟩⟩

theorem commentsBefore_cons (comment : c.isComment = true) :
    commentsBefore (n + 1) (c :: before) =
      if isDirective c then []
      else if before.head?.any fun t => !t.isComment && isBeside t c then []
      else c.text :: commentsBefore n before := by
  rw [commentsBefore, comment]
  rfl

theorem commentsBefore_of_other (other : earlier.isComment = false) :
    commentsBefore n (earlier :: rest) = [] := by
  cases n with
  | zero => rfl
  | succ n =>
      rw [commentsBefore, other]
      rfl

theorem any_head?_append (comments : ∀ c ∈ gap, c.isComment = true)
    (other : earlier.isComment = false) :
    ((gap ++ earlier :: rest).head?.any fun t => !t.isComment && isBeside t c) =
      (gap.isEmpty && isBeside earlier c) := by
  cases gap with
  | nil =>
      rw [List.nil_append, List.head?_cons, Option.any_some, other]
      rfl
  | cons d gap =>
      rw [List.cons_append, List.head?_cons, Option.any_some, comments d List.mem_cons_self]
      rfl

/-- Which of the comments of a gap are read, both with the one nearest to the end first: those from
the end on that are reached. -/
structure Picks (limit : Nat) (earlier : Tree) (gap used : List Tree) : Prop where
  front : used <+: gap
  reached : ∀ after c before, gap = after ++ c :: before →
    (after.length < used.length ↔ Reached limit earlier before c after)

theorem Picks.nothing (none : ∀ after c before, gap = after ++ c :: before →
    ¬ Reached n earlier before c after) : Picks n earlier gap [] := by
  refine ⟨List.nil_prefix, fun after c before split => ?_⟩
  exact iff_of_false (Nat.not_lt_zero _) (none after c before split)

theorem Picks.of_directive (directive : isDirective c = true) : Picks n earlier (c :: gap) [] := by
  apply Picks.nothing
  intro after d before split reached
  have member : c ∈ d :: after := by
    cases after <;> cases split <;> simp
  rw [reached.undirected c member] at directive
  cases directive

theorem Picks.of_beside (beside : isBeside earlier c = true) : Picks n earlier [c] [] := by
  apply Picks.nothing
  intro after d before split reached
  obtain ⟨rfl, same⟩ | ⟨more, -, none⟩ := List.cons_eq_append_iff.1 split
  · cases same
    exact reached.apart beside rfl
  · exact absurd none (by simp)

theorem Picks.cons {used : List Tree} (plain : isDirective c = false)
    (apart : isBeside earlier c = true → gap ≠ []) (picks : Picks n earlier gap used) :
    Picks (n + 1) earlier (c :: gap) (c :: used) := by
  refine ⟨List.cons_prefix_cons.2 ⟨rfl, picks.front⟩, fun after d before split => ?_⟩
  obtain ⟨rfl, same⟩ | ⟨more, rfl, behind⟩ := List.cons_eq_append_iff.1 split
  · cases same
    exact iff_of_true (Nat.succ_pos _) (Reached.nil_iff.2 ⟨plain, apart⟩)
  · rw [Reached.cons_iff, ← picks.reached more d before behind, List.length_cons, List.length_cons,
      Nat.succ_lt_succ_iff]
    exact (and_iff_right plain).symm

theorem exists_commentsBefore (limit : Nat) (rest : List Tree)
    (comments : ∀ c ∈ gap, c.isComment = true) (other : earlier.isComment = false) :
    ∃ used, Picks limit earlier gap used ∧
      commentsBefore limit (gap ++ earlier :: rest) = used.map Tree.text := by
  induction gap generalizing limit with
  | nil =>
      refine ⟨[], Picks.nothing fun after c before split => ?_, commentsBefore_of_other other⟩
      cases after <;> cases split
  | cons c gap ih =>
      cases limit with
      | zero => exact ⟨[], Picks.nothing fun _ _ _ _ reached => Nat.not_lt_zero _ reached.within, rfl⟩
      | succ n =>
          obtain ⟨comment, inside⟩ := List.forall_mem_cons.1 comments
          obtain ⟨used, picks, texts⟩ := ih n inside
          rw [List.cons_append, commentsBefore_cons comment, any_head?_append inside other]
          split
          · next directive => exact ⟨[], .of_directive directive, rfl⟩
          · next plain =>
              split
              · next own =>
                  rw [Bool.and_eq_true, List.isEmpty_iff] at own
                  obtain ⟨rfl, beside⟩ := own
                  exact ⟨[], .of_beside beside, rfl⟩
              · next apart =>
                  rw [Bool.and_eq_true, List.isEmpty_iff, not_and'] at apart
                  exact ⟨c :: used, picks.cons (Bool.eq_false_iff.2 plain) apart,
                    congrArg (c.text :: ·) texts⟩

end

/-- Which of the comments in a gap document what stands after it: the last ones, as far as they are
reached. -/
structure Documenting (earlier : Tree) (gap used : List Tree) : Prop where
  last : used <:+ gap
  reached : ∀ before c after, gap = before ++ c :: after →
    (after.length < used.length ↔ Reached commentLimit earlier before c after)

theorem exists_documenting {f : Focus} {earlier : Tree} {gap : List Tree}
    (between : Between f earlier gap) :
    ∃ used, Documenting earlier gap used ∧ leadingComments f = used.map Tree.text := by
  obtain ⟨rest, shape⟩ := between.before
  have comments : ∀ c ∈ gap.reverse, c.isComment = true := fun c member =>
    between.comments c (List.mem_reverse.1 member)
  obtain ⟨used, picks, texts⟩ := exists_commentsBefore commentLimit rest comments between.other
  refine ⟨used.reverse, ⟨?_, fun before c after split => ?_⟩, ?_⟩
  · rw [← List.reverse_prefix, List.reverse_reverse]
    exact picks.front
  · have turned : gap.reverse = after.reverse ++ c :: before.reverse := by
      rw [split, List.reverse_append, List.reverse_cons, List.append_assoc, List.singleton_append]
    rw [List.length_reverse, ← Reached.reverse_iff,
      ← picks.reached after.reverse c before.reverse turned, List.length_reverse]
  · rw [leadingComments, shape, texts, List.map_reverse]

theorem mem_visited_climb {t s : Tree} {above : List Syntax.Frame}
    (member : ⟨s, above⟩ ∈ visited t) : climb s above ∈ visited t := by
  induction above generalizing s with
  | nil => exact member
  | cons frame above ih =>
      unfold climb
      split
      · exact ih (Focus.parent_of_mem_visit member).1
      · exact member

theorem mem_visited_anchor {t : Tree} {f : Focus} (member : f ∈ visited t) :
    anchor f ∈ visited t := by
  refine mem_visited_climb (?_ : Focus.mk _ _ ∈ visited t)
  split
  · obtain ⟨s, _ | ⟨frame, above⟩⟩ := f
    · exact member
    · exact (Focus.parent_of_mem_visit member).1
  · exact member

/-- The comments of a gap that start on the line where the earlier tree ends, and those below. -/
structure Rows (earlier : Tree) (gap line below : List Tree) : Prop where
  split : gap = line ++ below
  line : ∀ c ∈ line, isBeside earlier c = true
  below : ∀ c ∈ below, isBeside earlier c = false

/-- In a text the comments on the line where the earlier tree ends come first. -/
theorem exists_rows {dialect : Syntax.Dialect} {source : Text} {f : Focus} {earlier : Tree}
    {gap : List Tree} (member : f ∈ visited (Syntax.read dialect source))
    (between : Between f earlier gap) : ∃ line below, Rows earlier gap line below := by
  obtain ⟨rest, shape⟩ := between.before
  have ordered := (List.pairwise_cons.1 (Syntax.pairwise_before member)).2
  rw [shape, List.pairwise_append] at ordered
  obtain ⟨descending, -, after⟩ := ordered
  refine ⟨gap.takeWhile (isBeside earlier), gap.dropWhile (isBeside earlier),
    List.takeWhile_append_dropWhile.symm, fun _ => List.mem_takeWhile_imp, ?_⟩
  have down : (gap.dropWhile (isBeside earlier)).Pairwise fun c d => c.stop.row ≤ d.start.row :=
    (List.pairwise_reverse.1 descending).sublist (List.dropWhile_sublist _)
  cases first : gap.dropWhile (isBeside earlier) with
  | nil => exact List.forall_mem_nil _
  | cons d more =>
      have other : isBeside earlier d = false := by
        have := List.head?_dropWhile_not (isBeside earlier) gap
        rwa [first] at this
      -- the first comment that is not on the line is below it, and the later ones are further down
      have inside : d ∈ gap := (List.dropWhile_sublist _).subset (first ▸ List.mem_cons_self)
      have start := after d (List.mem_reverse.2 inside) earlier List.mem_cons_self
      rw [first] at down
      refine List.forall_mem_cons.2 ⟨other, fun c member => ?_⟩
      have further := (List.pairwise_cons.1 down).1 c member
      have length := d.row_le_stop
      simp only [isBeside, beq_eq_false_iff_ne] at other ⊢
      omega

/-- Whether a comment on the line where the earlier tree ends documents what comes after: the last of
them is behind another one, there is room for it, and no directive is in the way. -/
structure Slips (line below : List Tree) : Prop where
  behind : 2 ≤ line.length
  within : below.length < commentLimit
  undirected : ∀ d ∈ line.getLast?.toList ++ below, isDirective d = false

theorem exists_beside_iff {earlier : Tree} {gap line below used : List Tree}
    (rows : Rows earlier gap line below) (last : used <:+ gap) :
    (∃ c ∈ used, isBeside earlier c = true) ↔ below.length < used.length := by
  obtain ⟨rfl, beside, apart⟩ := rows
  constructor
  · rintro ⟨c, member, onLine⟩
    by_contra short
    have inside := List.suffix_of_suffix_length_le last (List.suffix_append line below)
      (Nat.le_of_not_lt short)
    rw [apart c (inside.subset member)] at onLine
    cases onLine
  · intro long
    obtain ⟨front, rfl⟩ := List.suffix_of_suffix_length_le (List.suffix_append line below) last
      (Nat.le_of_lt long)
    have inLine : front <:+ line := List.suffix_append_self_iff.1 last
    cases front with
    | nil => exact absurd long (Nat.lt_irrefl _)
    | cons c front =>
        exact ⟨c, List.mem_cons_self, beside c (inLine.subset List.mem_cons_self)⟩

theorem slips_iff {earlier : Tree} {gap line below used : List Tree}
    (rows : Rows earlier gap line below) (documenting : Documenting earlier gap used) :
    (∃ c ∈ used, isBeside earlier c = true) ↔ Slips line below := by
  rw [exists_beside_iff rows documenting.last]
  obtain ⟨rfl, beside, -⟩ := rows
  obtain rfl | ⟨init, c, rfl⟩ := line.eq_nil_or_concat'
  · have short : used.length ≤ below.length := documenting.last.length_le
    exact ⟨fun long => absurd long (Nat.not_lt.2 short), fun slips => absurd slips.behind (by decide)⟩
  · have split : init ++ [c] ++ below = init ++ c :: below := List.append_assoc init [c] below
    rw [documenting.reached init c below split]
    have some : 2 ≤ (init ++ [c]).length ↔ init ≠ [] := by
      rw [List.length_append, List.length_singleton, ← List.length_pos_iff]
      omega
    have onLine := beside c (List.mem_append_right init List.mem_cons_self)
    constructor
    · rintro ⟨within, undirected, apart⟩
      refine ⟨some.2 (apart onLine), within, ?_⟩
      rw [List.getLast?_concat]
      exact undirected
    · rintro ⟨behind, within, undirected⟩
      rw [List.getLast?_concat] at undirected
      exact ⟨within, undirected, fun _ => some.1 behind⟩

/-- Whether a definition is the documented one of a focus, from some comments. -/
def Documents (used : List Tree) (f : Focus) (definition : Definition) : Prop :=
  ∃ d name, classify f = some d ∧ d.name? = some name ∧
    definition = (Documentation.ofComments (used.map Tree.text)).applyTo (d.definition name)

/-- What a text declares is documented by the comments between the statement before it and its own,
from the last of them back to the first that is not reached. Comments that start on the line where
the earlier statement ends are among them exactly if there is more than one on that line, no
directive from the last of them on, and room for it behind those below. -/
theorem findings_beside {dialect : Syntax.Dialect} {source : Text} {f : Focus}
    {definition : Definition} {earlier : Tree} {gap : List Tree}
    (member : f ∈ visited (Syntax.read dialect source))
    (found : definition ∈ (findings f).definitions) (between : Between (anchor f) earlier gap) :
    ∃ line below used, Rows earlier gap line below ∧ Documenting earlier gap used ∧
      Documents used f definition ∧
      ((∃ c ∈ used, isBeside earlier c = true) ↔ Slips line below) := by
  obtain ⟨line, below, rows⟩ := exists_rows (mem_visited_anchor member) between
  obtain ⟨used, documenting, texts⟩ := exists_documenting between
  obtain ⟨d, name, known, named, made⟩ := exists_of_mem_findings found
  rw [texts] at made
  exact ⟨line, below, used, rows, documenting, ⟨d, name, known, named, made⟩,
    slips_iff rows documenting⟩

/-- The first function that a text declares. -/
def functionIn (source : Text) : Focus :=
  ((visited (Syntax.read .plain source)).find? fun f => f.kind == .functionSignature).getD
    (Focus.root (Syntax.read .plain source))

theorem mem_visited_functionIn (source : Text) :
    functionIn source ∈ visited (Syntax.read .plain source) := by
  unfold functionIn
  cases found : (visited (Syntax.read .plain source)).find? fun f => f.kind == .functionSignature with
  | none => exact (Focus.mem_visit (f := Focus.root _)).2 (.inl rfl)
  | some f => exact List.mem_of_find?_eq_some found

/-- A function after a line with a declaration and two comments. -/
def crowded : Focus :=
  functionIn "interface A {} /* internal */ // do not use\ndeclare function f(x: number);".toList

/-- Of two comments on the line where a declaration ends the second documents the next one. -/
theorem findings_beside_crowded :
    ∃ earlier gap, Between (anchor crowded) earlier gap ∧
      gap.map Tree.text = ["/* internal */".toList, "// do not use".toList] ∧
      ∃ definition ∈ (findings crowded).definitions, definition.name = "f".toList ∧
        ∃ line below used, Rows earlier gap line below ∧ Documenting earlier gap used ∧
          Documents used crowded definition ∧
          ((∃ c ∈ used, isBeside earlier c = true) ↔ Slips line below) := by
  have read : (anchor crowded).before.map Tree.isComment = [true, true, false] ∧
      ((anchor crowded).before.take 2).map Tree.text =
        ["// do not use".toList, "/* internal */".toList] ∧
      ∃ definition ∈ (findings crowded).definitions, definition.name = "f".toList := by
    decide +kernel
  obtain ⟨kinds, texts, definition, found, named⟩ := read
  obtain ⟨second, before, shape, isSecond, kinds⟩ := List.map_eq_cons_iff.1 kinds
  obtain ⟨first, before, rfl, isFirst, kinds⟩ := List.map_eq_cons_iff.1 kinds
  obtain ⟨earlier, before, rfl, other, -⟩ := List.map_eq_cons_iff.1 kinds
  rw [shape] at texts
  have between : Between (anchor crowded) earlier [first, second] :=
    ⟨⟨before, shape⟩, by simp [isFirst, isSecond], other⟩
  exact ⟨earlier, [first, second], between, congrArg List.reverse texts, definition, found, named,
    findings_beside (mem_visited_functionIn _) found between⟩

/-- A comment on the line where a declaration ends may document the next declaration. -/
theorem findings_slip :
    ((anchor crowded).before[2]?.any fun earlier => !earlier.isComment &&
      ((anchor crowded).before.take 2).all fun c => c.isComment && isBeside earlier c) = true ∧
    ∃ definition ∈ (findings crowded).definitions, definition.name = "f".toList ∧
      definition.description = some "do not use".toList := by
  decide +kernel

end ApiReference.Declaration
