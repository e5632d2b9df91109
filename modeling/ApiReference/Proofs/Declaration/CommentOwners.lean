import ApiReference.Proofs.Declaration.LeadingComments
import ApiReference.Proofs.Declaration.Wrappers
import Mathlib.Logic.Relation

/-!
# One statement to a comment

The comments that are read before a declaration are its nearest left siblings, and none of them is
read for a declaration of another anchor: behind a comment there is one tree that comes first. In a
text one statement stands behind an anchor, however deep it is wrapped. Main statement:
`comment_has_one_statement`.
-/

namespace ApiReference.Syntax.Focus

/-- Trees in one parent with the nearest first, each among those that come after it here. -/
def leftward (parent : Tree) (above : List Frame) : List Tree → List Focus
  | [] => []
  | t :: before => ⟨t, ⟨parent, before⟩ :: above⟩ :: leftward parent above before

/-- The siblings to the left in their surroundings, nearest first. -/
def earlier (f : Focus) : List Focus :=
  match f.above with
  | [] => []
  | frame :: above => leftward frame.parent above frame.before

theorem map_tree_earlier (f : Focus) : f.earlier.map tree = f.before := by
  obtain ⟨s, _ | ⟨⟨parent, before⟩, above⟩⟩ := f
  · rfl
  · change (leftward parent above before).map tree = before
    induction before with
    | nil => rfl
    | cons t before ih => rw [leftward, List.map_cons, ih]

/-- What is to the left of a left sibling is what comes after it among the left siblings. -/
theorem earlier_of_split {f c : Focus} {near far : List Focus}
    (split : f.earlier = near ++ c :: far) : far = c.earlier ∧ c.parent? = f.parent? := by
  obtain ⟨s, _ | ⟨⟨parent, before⟩, above⟩⟩ := f
  · cases near <;> cases split
  · change leftward parent above before = near ++ c :: far at split
    induction before generalizing near with
    | nil => cases near <;> cases split
    | cons t before ih =>
        rw [leftward] at split
        cases near with
        | nil =>
            cases split
            exact ⟨rfl, rfl⟩
        | cons d near => exact ih (List.cons.inj split).2

theorem childrenAfter_split (parent : Tree) (above : List Frame) (before ts : List Tree) :
    childrenAfter parent above [] (before.reverse ++ ts) =
      (leftward parent above before).reverse ++ childrenAfter parent above before ts := by
  induction before generalizing ts with
  | nil => rfl
  | cons t before ih =>
      rw [List.reverse_cons, List.append_assoc, List.singleton_append, ih, childrenAfter, leftward,
        List.reverse_cons, List.append_assoc, List.singleton_append]

/-- A tree stands among the children of its parent behind its left siblings. -/
theorem exists_later {t : Tree} {f p : Focus} (member : f ∈ visit [] t) (up : f.parent? = some p) :
    ∃ later, p.children = f.earlier.reverse ++ f :: later := by
  obtain ⟨s, _ | ⟨⟨parent, before⟩, above⟩⟩ := f
  · cases up
  · obtain ⟨-, after, shape⟩ := parent_of_mem_visit member
    cases up
    refine ⟨childrenAfter parent above (s :: before) after, ?_⟩
    change childrenAfter parent above [] parent.children = _
    rw [show parent.children = before.reverse ++ s :: after from shape, childrenAfter_split,
      childrenAfter]
    rfl

theorem mem_children_parent {t : Tree} {f p : Focus} (member : f ∈ visit [] t)
    (up : f.parent? = some p) : f ∈ p.children ∧ p ∈ visit [] t := by
  obtain ⟨later, split⟩ := exists_later member up
  refine ⟨split ▸ List.mem_append_right _ List.mem_cons_self, ?_⟩
  obtain ⟨s, _ | ⟨frame, above⟩⟩ := f
  · cases up
  · cases up
    exact (parent_of_mem_visit member).1

end ApiReference.Syntax.Focus

namespace ApiReference.Declaration
open ApiReference.Syntax (Tree Focus Frame Kind Dialect)

/-- Why no comment is read from a place on to the left, given for how many there is room. -/
inductive Stops (room : Nat) : List Tree → Prop where
  | full {before : List Tree} (none : room = 0) : Stops room before
  | first : Stops room []
  | other {t : Tree} {before : List Tree} (other : t.isComment = false) : Stops room (t :: before)
  | directive {c : Tree} {before : List Tree} (directive : isDirective c = true) :
      Stops room (c :: before)
  | beside {c t : Tree} {before : List Tree} (other : t.isComment = false)
      (beside : isBeside t c = true) : Stops room (c :: t :: before)

theorem exists_stops (limit : Nat) (before : List Tree) :
    ∃ used rest, before = used ++ rest ∧ (∀ c ∈ used, c.isComment = true) ∧
      commentsBefore limit before = used.map Tree.text ∧ Stops (limit - used.length) rest := by
  have nothing {n : Nat} {ts : List Tree} (stops : Stops n ts) : ∃ used rest, ts = used ++ rest ∧
      (∀ c ∈ used, c.isComment = true) ∧ ([] : List Text) = used.map Tree.text ∧
        Stops (n - used.length) rest :=
    ⟨[], ts, rfl, List.forall_mem_nil _, rfl, stops⟩
  induction before generalizing limit with
  | nil => cases limit <;> exact nothing .first
  | cons sibling before ih =>
      cases limit with
      | zero => exact nothing (.full rfl)
      | succ n =>
          cases comment : sibling.isComment with
          | false =>
              rw [commentsBefore_of_other comment]
              exact nothing (.other comment)
          | true =>
              rw [commentsBefore_cons comment]
              split
              · next directive => exact nothing (.directive directive)
              · split
                · next own =>
                    cases before with
                    | nil => cases own
                    | cons t before =>
                        rw [List.head?_cons, Option.any_some, Bool.and_eq_true,
                          Bool.not_eq_true'] at own
                        exact nothing (.beside own.1 own.2)
                · obtain ⟨used, rest, rfl, comments, texts, stops⟩ := ih n
                  refine ⟨sibling :: used, rest, rfl, List.forall_mem_cons.2 ⟨comment, comments⟩,
                    congrArg (sibling.text :: ·) texts, ?_⟩
                  rwa [List.length_cons, Nat.add_sub_add_right]

/-- The trees whose texts are the comments read before a focus, in source order. -/
def commentsOf (f : Focus) : List Focus := (f.earlier.take (leadingComments f).length).reverse

/-- Trees that are the comments read before a focus: they stand directly before it in its parent, and
there is a reason why no more are read. -/
structure Leading (cs : List Focus) (f : Focus) : Prop where
  texts : (cs.map fun c => c.tree.text) = leadingComments f
  comments : ∀ c ∈ cs, c.tree.isComment = true
  adjacent : ∀ p, f.parent? = some p → cs ++ [f] <:+: p.children
  alone : f.parent? = none → cs = []
  stops : Stops (commentLimit - cs.length) (f.before.drop cs.length)

theorem take_before (f : Focus) :
    (∀ c ∈ f.before.take (leadingComments f).length, c.isComment = true) ∧
      leadingComments f = ((f.before.take (leadingComments f).length).map Tree.text).reverse ∧
      Stops (commentLimit - (leadingComments f).length)
        (f.before.drop (leadingComments f).length) := by
  obtain ⟨used, rest, split, comments, texts, stops⟩ := exists_stops commentLimit f.before
  have read : leadingComments f = (used.map Tree.text).reverse := congrArg List.reverse texts
  have length : (leadingComments f).length = used.length := by
    rw [read, List.length_reverse, List.length_map]
  have taken : f.before.take (leadingComments f).length = used := by
    rw [length, split, List.take_left]
  have left : f.before.drop (leadingComments f).length = rest := by
    rw [length, split, List.drop_left]
  rw [taken, left, length]
  exact ⟨comments, read, stops⟩

theorem length_commentsOf (f : Focus) : (commentsOf f).length = (leadingComments f).length := by
  have texts := congrArg List.length (take_before f).2.1
  rw [List.length_reverse, List.length_map, ← Focus.map_tree_earlier, ← List.map_take,
    List.length_map] at texts
  rw [commentsOf, List.length_reverse, ← texts]

theorem isComment_of_mem_commentsOf {f c : Focus} (member : c ∈ commentsOf f) :
    c.tree.isComment = true := by
  refine (take_before f).1 c.tree ?_
  rw [← Focus.map_tree_earlier, ← List.map_take]
  exact List.mem_map_of_mem (List.mem_reverse.1 member)

theorem leading_commentsOf {t : Tree} {f : Focus} (member : f ∈ visited t) :
    Leading (commentsOf f) f := by
  refine ⟨?_, fun c => isComment_of_mem_commentsOf, fun p up => ?_, fun top => ?_, ?_⟩
  · have texts := (take_before f).2.1
    rw [← Focus.map_tree_earlier, ← List.map_take] at texts
    rw [texts, commentsOf, List.map_reverse, List.map_map]
    rfl
  · obtain ⟨later, split⟩ := Focus.exists_later member up
    have whole := List.take_append_drop (leadingComments f).length f.earlier
    rw [← whole, List.reverse_append] at split
    refine ⟨(f.earlier.drop (leadingComments f).length).reverse, later, ?_⟩
    rw [split, commentsOf]
    simp only [List.append_assoc, List.singleton_append]
  · obtain ⟨s, _ | ⟨frame, above⟩⟩ := f
    · rfl
    · cases top
  · rw [length_commentsOf]
    exact (take_before f).2.2

/-- Behind a row of comments what comes next is the first tree that is no comment. -/
theorem find?_other {row later : List Focus} {f : Focus}
    (comments : ∀ c ∈ row, c.tree.isComment = true) (other : f.tree.isComment = false) :
    (row ++ f :: later).find? (fun g => !g.tree.isComment) = some f := by
  have none : row.find? (fun g => !g.tree.isComment) = none :=
    List.find?_eq_none.2 fun c member => by simp [comments c member]
  rw [List.find?_append, none, Option.none_or, List.find?_cons_of_pos]
  rw [other]
  rfl

/-- What a comment is read for is the first tree behind it that is no comment. -/
theorem exists_next {t : Tree} {f c : Focus} (member : f ∈ visited t)
    (other : f.tree.isComment = false) (read : c ∈ commentsOf f) :
    ∃ p next, c.parent? = some p ∧ p.children = c.earlier.reverse ++ c :: next ∧
      next.find? (fun g => !g.tree.isComment) = some f := by
  obtain ⟨near, far, front⟩ := List.append_of_mem (List.mem_reverse.1 read)
  have between : ∀ d ∈ near, d.tree.isComment = true := fun d inside =>
    isComment_of_mem_commentsOf (f := f)
      (List.mem_reverse.2 (front ▸ List.mem_append_left _ inside))
  have split : f.earlier = near ++ c ::
      (far ++ f.earlier.drop (leadingComments f).length) := by
    rw [← List.cons_append, ← List.append_assoc, ← front, List.take_append_drop]
  obtain ⟨rest, parent⟩ := Focus.earlier_of_split split
  cases up : f.parent? with
  | none =>
      rw [(leading_commentsOf member).alone up] at read
      cases read
  | some p =>
      obtain ⟨later, children⟩ := Focus.exists_later member up
      refine ⟨p, near.reverse ++ f :: later, parent.trans up, ?_,
        find?_other (fun d inside => between d (List.mem_reverse.1 inside)) other⟩
      rw [children, split, rest, List.reverse_append, List.reverse_cons]
      simp only [List.append_assoc, List.cons_append, List.nil_append]

theorem eq_of_shared_comment {t : Tree} {f g c : Focus} (member : f ∈ visited t)
    (member' : g ∈ visited t) (other : f.tree.isComment = false) (other' : g.tree.isComment = false)
    (read : c ∈ commentsOf f) (read' : c ∈ commentsOf g) : f = g := by
  obtain ⟨p, next, up, children, first⟩ := exists_next member other read
  obtain ⟨p', next', up', children', first'⟩ := exists_next member' other' read'
  obtain rfl : p = p' := Option.some.inj (up.symm.trans up')
  rw [children, List.append_cancel_left_eq, List.cons.injEq] at children'
  rw [← children'.2, first] at first'
  exact Option.some.inj first'

/-- What stands for a declaration among the statements: it declares itself, or is a variable of a
statement. -/
inductive Stated (f : Focus) : Focus → Prop where
  | itself (one : declaresOne f.kind = true) : Stated f f
  | variable_ {s : Focus} (declarator : f.kind = .variableDeclarator) (up : f.parent? = some s)
    (several : declaresVariables s.kind = true) : Stated f s

/-- Two declarations are of one statement: they are the same, or both are variables of it. -/
inductive OneStatement (f g : Focus) : Prop where
  | same (equal : f = g) : OneStatement f g
  | together {s : Focus} (first : f.kind = .variableDeclarator) (up : f.parent? = some s)
    (second : g.kind = .variableDeclarator) (up' : g.parent? = some s) : OneStatement f g

theorem exists_stated {f : Focus} {d : Declared} (known : classify f = some d) :
    ∃ s, Stated f s ∧ anchor f = climb s.tree s.above := by
  unfold classify at known
  dsimp only at known
  generalize shape : f.tree.kind = kind at known
  split at known
  · split at known
    · cases known
    · next s up =>
        split at known
        · next declared =>
            have declarator : f.kind = .variableDeclarator := shape
            rw [Bool.and_eq_true, Bool.or_eq_true, beq_iff_eq, beq_iff_eq] at declared
            refine ⟨s, .variable_ declarator up ?_, ?_⟩
            · rcases declared.1 with kind | kind <;> rw [kind] <;> rfl
            · rw [anchor, declarator, up]
              rfl
        · cases known
  · next other =>
      have one : declaresOne f.kind = true := by
        rw [Focus.kind, shape]
        split at known
        · cases known
        · split at known
          case h_8 => cases known
          all_goals rfl
      refine ⟨f, .itself one, ?_⟩
      rw [anchor, if_neg]
      rw [beq_iff_eq]
      exact fun declarator => other (shape.symm.trans declarator)

namespace Stated
variable {t : Tree} {f g s : Focus}

theorem isStatement (stated : Stated f s) : isStatement s.kind = true := by
  cases stated with
  | itself one => rw [Declaration.isStatement, one, Bool.true_or]
  | variable_ declarator up several => rw [Declaration.isStatement, several, Bool.or_true]

theorem mem_visited (stated : Stated f s) (member : f ∈ visited t) : s ∈ visited t := by
  cases stated with
  | itself one => exact member
  | variable_ declarator up several => exact (Focus.mem_children_parent member up).2

theorem oneStatement (stated : Stated f s) (stated' : Stated g s) : OneStatement f g := by
  cases stated with
  | itself one =>
      cases stated' with
      | itself one' => exact .same rfl
      | variable_ declarator up several =>
          rw [declaresVariables_of_declaresOne one] at several
          cases several
  | variable_ declarator up several =>
      cases stated' with
      | itself one =>
          rw [declaresVariables_of_declaresOne one] at several
          cases several
      | variable_ declarator' up' => exact .together declarator up declarator' up'

end Stated

/-- A wrapper of a file and a declaration in it. -/
structure Wraps (t : Tree) (outer inner : Focus) : Prop where
  member : outer ∈ visited t
  wrapper : isWrapper outer.kind = true
  child : inner ∈ outer.children
  declares : declares inner.kind = true

theorem wraps_climb {t s : Tree} {above : List Frame} (member : ⟨s, above⟩ ∈ visited t)
    (known : declares s.kind = true) :
    Relation.ReflTransGen (Wraps t) (climb s above) ⟨s, above⟩ := by
  induction above generalizing s with
  | nil => exact .refl
  | cons frame above ih =>
      unfold climb
      split
      · next wrapper =>
          obtain ⟨child, outer⟩ := Focus.mem_children_parent member rfl
          exact (ih outer (declares_of_isWrapper wrapper)).tail ⟨outer, wrapper, child, known⟩
      · exact .refl

theorem declares_climb {s : Tree} (above : List Frame) (known : declares s.kind = true) :
    declares (climb s above).kind = true := by
  induction above generalizing s with
  | nil => exact known
  | cons frame above ih =>
      unfold climb
      split
      · next wrapper => exact ih (declares_of_isWrapper wrapper)
      · exact known

theorem eq_of_countP_le_one {p : Focus → Bool} {fs : List Focus} {f g : Focus}
    (few : fs.countP p ≤ 1) (member : f ∈ fs) (holds : p f = true) (member' : g ∈ fs)
    (holds' : p g = true) : f = g := by
  have inside := List.mem_filter.2 ⟨member, holds⟩
  have inside' := List.mem_filter.2 ⟨member', holds'⟩
  rw [List.countP_eq_length_filter] at few
  match fs.filter p, few, inside, inside' with
  | [h], _, inside, inside' =>
    exact (List.mem_singleton.1 inside).trans (List.mem_singleton.1 inside').symm

theorem rightUnique_wraps {t : Tree} (single : Single t) : Relator.RightUnique (Wraps t) := by
  rintro outer f g ⟨member, wrapper, child, known⟩ ⟨-, -, child', known'⟩
  have few := (single.of_mem_visit ⟨t, []⟩ outer member).declarationCount_le wrapper
  rw [declarationCount,
    ← Focus.map_tree_childrenAfter outer.tree outer.above [] outer.tree.children,
    List.countP_map] at few
  exact eq_of_countP_le_one few child known child' known'

/-- A statement wraps nothing. -/
theorem eq_of_wraps {t : Tree} {r s : Focus} (statement : isStatement r.kind = true)
    (reached : Relation.ReflTransGen (Wraps t) r s) : r = s := by
  rcases reached.cases_head with same | ⟨c, wraps, -⟩
  · exact same
  · have wrapper := wraps.wrapper
    rw [isWrapper_of_isStatement statement] at wrapper
    cases wrapper

/-- Where wrappers wrap one declaration at most, one statement is behind an anchor. -/
theorem eq_of_climb {t : Tree} (single : Single t) {r s : Focus} (member : r ∈ visited t)
    (member' : s ∈ visited t) (statement : isStatement r.kind = true)
    (statement' : isStatement s.kind = true)
    (same : climb r.tree r.above = climb s.tree s.above) : r = s := by
  have toFirst := wraps_climb member (declares_of_isStatement statement)
  have toSecond := wraps_climb member' (declares_of_isStatement statement')
  rw [same] at toFirst
  rcases Relation.ReflTransGen.total_of_right_unique (rightUnique_wraps single) toFirst toSecond
    with down | down
  · exact eq_of_wraps statement down
  · exact (eq_of_wraps statement' down).symm

theorem isComment_of_declares {t : Tree} (known : declares t.kind = true) :
    t.isComment = false := by
  rw [Tree.isComment, beq_eq_false_iff_ne]
  intro comment
  rw [comment] at known
  cases known

theorem isComment_anchor {f : Focus} {d : Declared} (known : classify f = some d) :
    (anchor f).tree.isComment = false := by
  obtain ⟨s, stated, same⟩ := exists_stated known
  rw [same]
  exact isComment_of_declares (declares_climb _ (declares_of_isStatement stated.isStatement))

theorem oneStatement_of_anchor {t : Tree} (single : Single t) {f g : Focus} {d e : Declared}
    (member : f ∈ visited t) (known : classify f = some d) (member' : g ∈ visited t)
    (known' : classify g = some e) (same : anchor f = anchor g) : OneStatement f g := by
  obtain ⟨r, stated, top⟩ := exists_stated known
  obtain ⟨s, stated', top'⟩ := exists_stated known'
  rw [top, top'] at same
  obtain rfl := eq_of_climb single (stated.mem_visited member) (stated'.mem_visited member')
    stated.isStatement stated'.isStatement same
  exact stated.oneStatement stated'

/-- The comments read before the anchor of a tree stand in its parent directly before it, in source
order, and none is left out without a reason. What is read before the anchors of two declarations
shares no comment unless the anchor is the same, and in a text two declarations of one anchor are the
same or variables of one statement. -/
theorem comment_has_one_statement (t : Tree) :
    (∀ f ∈ visited t, Leading (commentsOf (anchor f)) (anchor f)) ∧
    ∀ f ∈ visited t, ∀ g ∈ visited t, (classify f).isSome → (classify g).isSome →
      ∀ c ∈ commentsOf (anchor f), c ∈ commentsOf (anchor g) →
        anchor f = anchor g ∧
          ∀ dialect source, t = Syntax.read dialect source → OneStatement f g := by
  refine ⟨fun f member => leading_commentsOf (mem_visited_anchor member), ?_⟩
  intro f member g member' declared declared' c read read'
  obtain ⟨d, known⟩ := Option.isSome_iff_exists.1 declared
  obtain ⟨e, known'⟩ := Option.isSome_iff_exists.1 declared'
  have same := eq_of_shared_comment (mem_visited_anchor member) (mem_visited_anchor member')
    (isComment_anchor known) (isComment_anchor known') read read'
  refine ⟨same, ?_⟩
  rintro dialect source rfl
  exact oneStatement_of_anchor (single_read dialect source) member known member' known' same

/-- A comment before two variables of one wrapped statement. -/
def sharedText : Text := "/** A. */\nexport declare const a: number, b: string;".toList

def variablesIn (source : Text) : List Focus :=
  (visited (Syntax.read .plain source)).filter fun f => f.kind == .variableDeclarator

/-- Both variables of the statement are documented by the one comment before it. -/
theorem comment_has_one_statement_shared :
    ∃ f g, variablesIn sharedText = [f, g] ∧ f.tree.text = "a: number".toList ∧
      g.tree.text = "b: string".toList ∧ (classify f).isSome ∧ (classify g).isSome ∧
      ∃ c ∈ commentsOf (anchor f), c ∈ commentsOf (anchor g) ∧ c.tree.text = "/** A. */".toList ∧
        anchor f = anchor g ∧ OneStatement f g := by
  have read : (variablesIn sharedText).map (fun f => (f.tree.text, (classify f).isSome,
      (anchor f).address, leadingComments (anchor f))) =
      [("a: number".toList, true, [1], ["/** A. */".toList]),
        ("b: string".toList, true, [1], ["/** A. */".toList])] := by
    decide +kernel
  obtain ⟨f, rest, shape, first, more⟩ := List.map_eq_cons_iff.1 read
  obtain ⟨g, rest, rfl, second, none⟩ := List.map_eq_cons_iff.1 more
  obtain rfl := List.map_eq_nil_iff.1 none
  simp only [Prod.mk.injEq] at first second
  obtain ⟨text, declared, address, comments⟩ := first
  obtain ⟨text', declared', address', -⟩ := second
  have inside : ∀ h ∈ [f, g], h ∈ visited (Syntax.read .plain sharedText) := fun h member =>
    (List.mem_filter.1 (shape ▸ member : h ∈ variablesIn sharedText)).1
  have member := inside f List.mem_cons_self
  have member' := inside g (List.mem_cons_of_mem f List.mem_cons_self)
  obtain ⟨leading, owners⟩ := comment_has_one_statement (Syntax.read .plain sharedText)
  have same : anchor f = anchor g := Option.some.inj
    (((Focus.descend?_root _ _ _).2 ⟨mem_visited_anchor member, address⟩).symm.trans
      ((Focus.descend?_root _ _ _).2 ⟨mem_visited_anchor member', address'⟩))
  have texts := (leading f member).texts.trans comments
  obtain ⟨c, cs, row, comment, -⟩ := List.map_eq_cons_iff.1 texts
  have read : c ∈ commentsOf (anchor f) := row ▸ List.mem_cons_self
  obtain ⟨-, one⟩ := owners f member g member' declared declared' c read (same ▸ read)
  exact ⟨f, g, shape, text, text', declared, declared', c, read, same ▸ read, comment, same,
    one .plain sharedText rfl⟩

end ApiReference.Declaration
