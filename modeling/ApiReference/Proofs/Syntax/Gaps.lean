import ApiReference.Proofs.Syntax.Copy
import ApiReference.Proofs.Syntax.Lexeme.Scan

/-!
# Places in two texts

Two texts that differ only in their gaps, walked through side by side: what is passed between tokens
is passed in both of them, and where a line end cannot have been added or taken away, a statement ends
in both of them or in neither. Main statements: `exists_skip`, `exists_readLineEnd`.
-/

namespace ApiReference.Syntax

open Cursor (Leads Reaches)

theorem Position.row_after_eq_iff (p : Position) (t : Text) :
    (p.after t).row = p.row ↔ '\n' ∉ t := by
  induction t generalizing p with
  | nil => exact iff_of_true rfl List.not_mem_nil
  | cons c t ih =>
      change ((p.next c).after t).row = p.row ↔ _
      by_cases lineFeed : c = '\n'
      · subst lineFeed
        refine iff_of_false (Nat.ne_of_gt ?_) (not_not.2 List.mem_cons_self)
        exact Nat.lt_of_lt_of_le (Nat.lt_succ_self p.row) ((p.next '\n').row_le_after t)
      · have row : (p.next c).row = p.row := by rw [next, if_neg lineFeed]
        rw [← row, ih, List.mem_cons, not_or]
        exact (and_iff_right (Ne.symm lineFeed)).symm

theorem isSpace_of_isWhite (c : Char) (white : isWhite c = true) : Lexeme.isSpace c = true :=
  isWhite_cases (P := fun c => Lexeme.isSpace c = true) (by decide) (by decide) (by decide)
    (by decide) white

theorem isPlainSpace_of_isWhite (c : Char) (white : isWhite c = true) : isPlainSpace c = true :=
  isWhite_cases (P := fun c => isPlainSpace c = true) (by decide) (by decide) (by decide)
    (by decide) white

namespace Reflow
variable {p q : Layout} {s t u v : Text} {f : Char → Bool}

/-- Where no line end may be added or taken away, that stays so as long as nothing but closing
characters stand there. -/
theorem closed_run (reflow : Reflow p u v q) (closed : p.isOpen = false)
    (closing : ∀ c ∈ u, Lexeme.Closing c) : q.isOpen = false ∧ ('\n' ∈ u ↔ '\n' ∈ v) := by
  induction reflow with
  | nil => exact ⟨closed, Iff.rfl⟩
  | @same p q c s t token more ih =>
      obtain ⟨first, rest⟩ := List.forall_mem_cons.1 closing
      have closed' : (p.next c).isOpen = false := Layout.isOpen_of_closing first
      obtain ⟨still, same⟩ := ih closed' rest
      exact ⟨still, by rw [List.mem_cons, List.mem_cons, same]⟩
  | @gap p q g h s t left right unescaped token more ih =>
      have none {g : Text} (run : IsRun isSpacing g) : '\n' ∉ g :=
        fun member => absurd (run.2 _ member) (by decide)
      have closed' : p.spaced.isOpen = false := Bool.and_false _
      obtain ⟨still, same⟩ := ih closed' fun c member => closing c (List.mem_append_right _ member)
      refine ⟨still, ?_⟩
      rw [List.mem_append, List.mem_append, or_iff_right (none left), or_iff_right (none right), same]
  | fold left right ends => exact absurd ends (Bool.eq_false_iff.1 closed)

/-- What begins with a slash has a line end in one text if and only if it has one in the other. -/
theorem lineFeed_iff_of_slash (reflow : Reflow p ('/' :: s) t q) :
    '\n' ∈ '/' :: s ↔ '\n' ∈ t := by
  obtain ⟨t, rfl, -, more⟩ := reflow.uncons (by decide) (.inl (by decide))
  have bound : (p.next '/').free = false := Layout.bound_of_begins rfl (by decide)
  rw [List.mem_cons, List.mem_cons, more.lineFeed_iff bound]

end Reflow

/-- A place in each of two texts and the layout there. -/
structure Pair where
  layout : Layout
  left : Cursor
  right : Cursor

namespace Pair

/-- What stands between one pair of places and another. -/
structure Moves (u v : Text) (a b : Pair) : Prop where
  left : Leads u a.left b.left
  right : Leads v a.right b.right
  reflow : Reflow a.layout u v b.layout

/-- From one pair of places on to another the texts differ only in their gaps. -/
def Together (a b : Pair) : Prop := ∃ u v, Moves u v a b

/-- The same, and no line end may be added or taken away on the way or behind it, if it may not be at
the beginning. -/
def Quietly (a b : Pair) : Prop :=
  ∃ u v, Moves u v a b ∧
    (a.layout.isOpen = false → b.layout.isOpen = false ∧ ('\n' ∈ u ↔ '\n' ∈ v))

/-- The rest of both texts differs only in its gaps. -/
def Beside (a : Pair) : Prop :=
  ∃ q : Layout, q.folded = false ∧ Reflow a.layout a.left.rest a.right.rest q

/-- No line end has been added or taken away directly behind two places. -/
def Steady (c d : Cursor) : Prop := ∃ p : Layout, p.isOpen = false ∧ Beside ⟨p, c, d⟩

variable {a b d : Pair} {s t u v : Text}

theorem Beside.nil_iff : Beside a → (a.left.rest = [] ↔ a.right.rest = [])
  | ⟨_, _, reflow⟩ => reflow.eq_nil_iff

theorem Moves.refl (a : Pair) : Moves [] [] a a := ⟨⟨rfl, rfl⟩, ⟨rfl, rfl⟩, .nil⟩

theorem Moves.trans (first : Moves u v a b) (second : Moves s t b d) :
    Moves (u ++ s) (v ++ t) a d :=
  ⟨first.left.trans second.left, first.right.trans second.right,
    first.reflow.append second.reflow⟩

theorem Together.refl (a : Pair) : Together a a := ⟨[], [], .refl a⟩

theorem Together.trans : Together a b → Together b d → Together a d
  | ⟨_, _, first⟩, ⟨_, _, second⟩ => ⟨_, _, first.trans second⟩

theorem Quietly.together : Quietly a b → Together a b
  | ⟨_, _, moves, _⟩ => ⟨_, _, moves⟩

theorem Quietly.refl (a : Pair) : Quietly a a :=
  ⟨[], [], .refl a, fun closed => ⟨closed, Iff.rfl⟩⟩

theorem Quietly.trans : Quietly a b → Quietly b d → Quietly a d := by
  rintro ⟨u, v, first, quiet⟩ ⟨s, t, second, quiet'⟩
  refine ⟨u ++ s, v ++ t, first.trans second, fun closed => ?_⟩
  obtain ⟨closed', same⟩ := quiet closed
  obtain ⟨closed'', same'⟩ := quiet' closed'
  exact ⟨closed'', by rw [List.mem_append, List.mem_append, same, same']⟩

/-- Behind places from which one can go no further without a line end that only one text has. -/
theorem Quietly.steady (quietly : Quietly a b) (beside : Beside b)
    (closed : a.layout.isOpen = false) : Steady b.left b.right := by
  obtain ⟨u, v, moves, quiet⟩ := quietly
  exact ⟨b.layout, (quiet closed).1, beside⟩

/-- Two places are on the lines of two earlier ones, or both are not. -/
theorem Quietly.row_eq_iff (quietly : Quietly a b) (closed : a.layout.isOpen = false) :
    b.left.position.row = a.left.position.row ↔ b.right.position.row = a.right.position.row := by
  obtain ⟨u, v, moves, quiet⟩ := quietly
  rw [moves.left.position, moves.right.position, Position.row_after_eq_iff,
    Position.row_after_eq_iff, (quiet closed).2]

/-- Both places moved on by what is cut off. -/
def advance (a : Pair) (r : Layout) (j k : Nat) : Pair := ⟨r, a.left.advance j, a.right.advance k⟩

section
variable {j k : Nat} {r q : Layout}

theorem moves_advance (cut : Cut a.layout a.left.rest a.right.rest j k r q) :
    Moves (a.left.rest.take j) (a.right.rest.take k) a (a.advance r j k) :=
  ⟨a.left.leads_advance j, a.right.leads_advance k, cut.front⟩

theorem beside_advance (cut : Cut a.layout a.left.rest a.right.rest j k r q)
    (solid : q.folded = false) : Beside (a.advance r j k) := ⟨q, solid, cut.back⟩

end

theorem exists_skipSpace (beside : Beside a) : ∃ b : Pair, b.left = a.left.skipSpace ∧
    b.right = a.right.skipSpace ∧ Quietly a b ∧ Beside b := by
  obtain ⟨q, solid, reflow⟩ := beside
  obtain ⟨r, front, back⟩ := reflow.span_white isSpace_of_isWhite
  have cut := Cut.of_span front back
  refine ⟨a.advance r _ _, rfl, rfl, ⟨_, _, moves_advance cut, fun closed => ?_⟩,
    beside_advance cut solid⟩
  have spaces : ∀ c ∈ a.left.rest.takeWhile Lexeme.isSpace, Lexeme.Closing c := fun c member =>
    Lexeme.closing_of (by decide) (by decide) (List.mem_takeWhile_imp member)
  rw [← List.prefix_iff_eq_take.1 (List.takeWhile_prefix _),
    ← List.prefix_iff_eq_take.1 (List.takeWhile_prefix _)]
  exact front.closed_run closed spaces

end Pair

open Pair

/-- Trees stand between two pairs of places, those of one text like those of the other, and so do the
children of each of them within it. -/
inductive Twins : Pair → List Tree → List Tree → Pair → Prop where
  | done {a b : Pair} (skipped : Together a b) : Twins a [] [] b
  | tree {a b d e : Pair} {t t' : Tree} {ts us : List Tree} (skipped : Together a b)
      (start : t.start = b.left.position) (start' : t'.start = b.right.position) (like : t.Like t')
      (text : Moves t.text t'.text b d) (inside : Twins b t.children t'.children d)
      (after : Twins d ts us e) : Twins a (t :: ts) (t' :: us) e

namespace Twins
variable {a b d e : Pair} {ts us vs ws : List Tree}

theorem together (twins : Twins a ts us b) : Together a b := by
  induction twins with
  | done skipped => exact skipped
  | tree skipped _ _ _ text _ _ _ more => exact skipped.trans (.trans ⟨_, _, text⟩ more)

theorem of_together (skipped : Together a b) (twins : Twins b ts us d) : Twins a ts us d := by
  cases twins with
  | done more => exact .done (skipped.trans more)
  | tree more start start' like text inside after =>
      exact .tree (skipped.trans more) start start' like text inside after

theorem append (first : Twins a ts us b) (second : Twins b vs ws d) :
    Twins a (ts ++ vs) (us ++ ws) d := by
  induction first with
  | done skipped => exact second.of_together skipped
  | tree skipped start start' like text inside _ _ ih =>
      exact .tree skipped start start' like text inside (ih second)

theorem leaf (kind : Kind) {j k : Nat}
    (moves : Moves (a.left.rest.take j) (a.right.rest.take k) a b) :
    Twins a [Tree.leaf kind a.left.position (a.left.rest.take j)]
      [Tree.leaf kind a.right.position (a.right.rest.take k)] b :=
  .tree (.refl a) rfl rfl ⟨rfl, rfl, rfl⟩ moves (.done ⟨_, _, moves⟩) (.done (.refl b))

end Twins

theorem Cursor.skipSpace_of_nil {c : Cursor} (none : c.rest = []) : c.skipSpace = c := by
  obtain ⟨position, rest⟩ := c
  cases none
  rfl

theorem Cursor.rest_skipSpace (c : Cursor) :
    c.skipSpace.rest = c.rest.dropWhile Lexeme.isSpace :=
  Text.drop_length_takeWhile _ _

theorem Cursor.skipWithin_of_nil {c : Cursor} (none : c.rest = []) (bound : Text) :
    c.skipWithin bound = (c, []) := by
  cases bound with
  | nil => rfl
  | cons b bound =>
      rw [skipWithin, Cursor.skipSpace_of_nil none, none]
      rfl

theorem Cursor.skipWithin_of_noComment {c : Cursor} (none : Lexeme.comment c.skipSpace.rest = 0)
    (b : Char) (bound : Text) : c.skipWithin (b :: bound) = (c.skipSpace, []) := by
  rw [skipWithin, none]
  rfl

theorem Cursor.skipWithin_of_comment {c : Cursor} {k : Nat}
    (found : Lexeme.comment c.skipSpace.rest = k + 1) (b : Char) (bound : Text) :
    c.skipWithin (b :: bound) = (((c.skipSpace.advance (k + 1)).skipWithin bound).1,
      Tree.leaf .comment c.skipSpace.position (c.skipSpace.rest.take (k + 1)) ::
        ((c.skipSpace.advance (k + 1)).skipWithin bound).2) := by
  rw [skipWithin, found]
  rfl

theorem length_advance_le {c : Cursor} {k n : Nat} (found : k ≠ 0) (le : c.rest.length ≤ n + 1) :
    (c.advance k).rest.length ≤ n := by
  rw [Cursor.advance, List.length_drop]
  omega

theorem length_skipSpace_le (c : Cursor) : c.skipSpace.rest.length ≤ c.rest.length := by
  rw [c.rest_skipSpace]
  exact (List.dropWhile_sublist _).length_le

theorem length_pastComment_le {c : Cursor} {k n : Nat} (le : c.rest.length ≤ n + 1) :
    (c.skipSpace.advance (k + 1)).rest.length ≤ n :=
  length_advance_le (Nat.succ_ne_zero k) ((length_skipSpace_le c).trans le)

section
variable {a : Pair}

/-- A comment in front of both texts, or none. -/
theorem cases_comment (beside : Beside a) :
    (Lexeme.comment a.left.rest = 0 ∧ Lexeme.comment a.right.rest = 0) ∨
    ∃ j k, Lexeme.comment a.left.rest = j + 1 ∧ Lexeme.comment a.right.rest = k + 1 ∧ ∃ b : Pair,
      b.left = a.left.advance (j + 1) ∧ b.right = a.right.advance (k + 1) ∧
      Twins a [Tree.leaf .comment a.left.position (a.left.rest.take (j + 1))]
        [Tree.leaf .comment a.right.position (a.right.rest.take (k + 1))] b ∧
      Quietly a b ∧ b.layout.isOpen = false ∧ Beside b := by
  obtain ⟨q, solid, reflow⟩ := beside
  refine (Lexeme.agree_comment reflow).imp_right fun ⟨found, found', r, cut, bound⟩ => ?_
  obtain ⟨j, length⟩ := Nat.exists_eq_succ_of_ne_zero found
  obtain ⟨k, length'⟩ := Nat.exists_eq_succ_of_ne_zero found'
  rw [length, length'] at cut
  have moves := moves_advance cut
  have closed := Layout.isOpen_of_bound bound
  refine ⟨j, k, length, length', a.advance r _ _, rfl, rfl, .leaf .comment moves,
    ⟨_, _, moves, fun _ => ⟨closed, ?_⟩⟩, closed, beside_advance cut solid⟩
  have front := cut.front
  cases shape : a.left.rest with
  | nil =>
      rw [shape] at found
      exact absurd rfl found
  | cons c s =>
      have slash : c = '/' := by
        by_contra other
        rw [shape] at found
        exact found (Lexeme.comment_of_ne fun first => other (Option.some.inj first))
      subst slash
      rw [shape, List.take_succ_cons] at front
      rw [List.take_succ_cons]
      exact front.lineFeed_iff_of_slash

/-- Behind white space a comment stands in both texts or in neither. -/
theorem cases_skipSpace (beside : Beside a) :
    (Lexeme.comment a.left.skipSpace.rest = 0 ∧ Lexeme.comment a.right.skipSpace.rest = 0 ∧
      ∃ b : Pair, b.left = a.left.skipSpace ∧ b.right = a.right.skipSpace ∧ Quietly a b ∧
        Beside b) ∨
    ∃ j k, Lexeme.comment a.left.skipSpace.rest = j + 1 ∧
      Lexeme.comment a.right.skipSpace.rest = k + 1 ∧ ∃ b : Pair,
      b.left = a.left.skipSpace.advance (j + 1) ∧ b.right = a.right.skipSpace.advance (k + 1) ∧
      Twins a
        [Tree.leaf .comment a.left.skipSpace.position (a.left.skipSpace.rest.take (j + 1))]
        [Tree.leaf .comment a.right.skipSpace.position (a.right.skipSpace.rest.take (k + 1))] b ∧
      Quietly a b ∧ b.layout.isOpen = false ∧ Beside b := by
  obtain ⟨b, left, right, spaces, behind⟩ := exists_skipSpace beside
  rw [← left, ← right]
  rcases cases_comment behind with
    ⟨none, none'⟩ | ⟨j, k, found, found', d, passed, passed', comment, quietly, closed, further⟩
  · exact .inl ⟨none, none', b, rfl, rfl, spaces, behind⟩
  · exact .inr ⟨j, k, found, found', d, passed, passed', comment.of_together spaces.together,
      spaces.trans quietly, closed, further⟩

/-- White space and comments are passed in both texts, whatever the bounds. -/
theorem exists_skipWithin {m n : Text} (beside : Beside a) (enough : a.left.rest.length ≤ m.length)
    (enough' : a.right.rest.length ≤ n.length) :
    ∃ b : Pair, b.left = (a.left.skipWithin m).1 ∧ b.right = (a.right.skipWithin n).1 ∧
      Twins a (a.left.skipWithin m).2 (a.right.skipWithin n).2 b ∧ Quietly a b ∧ Beside b := by
  induction m generalizing a n with
  | nil =>
      have none : a.left.rest = [] := List.eq_nil_of_length_eq_zero (Nat.le_zero.1 enough)
      rw [Cursor.skipWithin_of_nil none, Cursor.skipWithin_of_nil (beside.nil_iff.1 none)]
      exact ⟨a, rfl, rfl, .done (.refl a), .refl a, beside⟩
  | cons m ms ih =>
      cases n with
      | nil =>
          have none : a.right.rest = [] := List.eq_nil_of_length_eq_zero (Nat.le_zero.1 enough')
          rw [Cursor.skipWithin_of_nil none, Cursor.skipWithin_of_nil (beside.nil_iff.2 none)]
          exact ⟨a, rfl, rfl, .done (.refl a), .refl a, beside⟩
      | cons n ns =>
          rcases cases_skipSpace beside with ⟨none, none', b, left, right, spaces, behind⟩ |
            ⟨j, k, found, found', d, passed, passed', comment, quietly, -, further⟩
          · rw [Cursor.skipWithin_of_noComment none, Cursor.skipWithin_of_noComment none']
            exact ⟨b, left, right, .done spaces.together, spaces, behind⟩
          · rw [Cursor.skipWithin_of_comment found, Cursor.skipWithin_of_comment found', ← passed,
              ← passed']
            obtain ⟨e, stop, stop', more, rest, last⟩ := ih further
              (passed ▸ length_pastComment_le enough) (passed' ▸ length_pastComment_le enough')
            exact ⟨e, stop, stop', comment.append more, quietly.trans rest, last⟩

theorem exists_skip (beside : Beside a) : ∃ b : Pair, b.left = a.left.skip.1 ∧
    b.right = a.right.skip.1 ∧ Twins a a.left.skip.2 a.right.skip.2 b ∧ Quietly a b ∧ Beside b :=
  exists_skipWithin beside (Nat.le_refl _) (Nat.le_refl _)

end

theorem Cursor.head?_skipWithin {bound : Text} {c : Cursor} (enough : c.rest.length ≤ bound.length) :
    ∀ d ∈ (c.skipWithin bound).1.rest.head?, isWhite d = false := by
  induction bound generalizing c with
  | nil =>
      have none : c.rest = [] := List.eq_nil_of_length_eq_zero (Nat.le_zero.1 enough)
      rw [skipWithin, none]
      exact nofun
  | cons b bound ih =>
      cases found : Lexeme.comment c.skipSpace.rest with
      | zero =>
          rw [skipWithin_of_noComment found, rest_skipSpace]
          intro d first
          refine Bool.eq_false_iff.2 fun white => ?_
          have other := Text.head?_dropWhile _ _ d first
          rw [isSpace_of_isWhite d white] at other
          cases other
      | succ k =>
          rw [skipWithin_of_comment found]
          exact ih (length_pastComment_le enough)

/-- No white space stands where white space has been passed. -/
theorem Cursor.head?_skip (c : Cursor) : ∀ d ∈ c.skip.1.rest.head?, isWhite d = false :=
  head?_skipWithin (Nat.le_refl _)

section
variable {p q : Layout} {s t : Text} {beforeBody : Bool}

theorem pastComments_of_nil (bound : Text) : pastComments bound [] = [] := by
  cases bound <;> rfl

theorem pastComments_of_noComment {t : Text}
    (none : Lexeme.comment (t.dropWhile isPlainSpace) = 0) (b : Char) (bound : Text) :
    pastComments (b :: bound) t = t.dropWhile isPlainSpace := by
  rw [pastComments, none]
  rfl

theorem pastComments_of_comment {t : Text} {k : Nat}
    (found : Lexeme.comment (t.dropWhile isPlainSpace) = k + 1) (b : Char) (bound : Text) :
    pastComments (b :: bound) t =
      pastComments bound ((t.dropWhile isPlainSpace).drop (k + 1)) := by
  rw [pastComments, found]
  rfl

theorem length_drop_dropWhile_le {f : Char → Bool} {t : Text} {n k : Nat}
    (le : t.length ≤ n + 1) : ((t.dropWhile f).drop (k + 1)).length ≤ n := by
  have := (List.dropWhile_sublist f (l := t)).length_le
  rw [List.length_drop]
  omega

theorem exists_pastComments {m n : Text} (reflow : Reflow p s t q) (enough : s.length ≤ m.length)
    (enough' : t.length ≤ n.length) :
    ∃ r, Reflow r (pastComments m s) (pastComments n t) q := by
  induction m generalizing p s t n with
  | nil =>
      cases List.eq_nil_of_length_eq_zero (Nat.le_zero.1 enough)
      cases reflow.eq_nil_iff.1 rfl
      rw [pastComments_of_nil, pastComments_of_nil]
      exact ⟨p, reflow⟩
  | cons m ms ih =>
      cases n with
      | nil =>
          cases List.eq_nil_of_length_eq_zero (Nat.le_zero.1 enough')
          cases reflow.eq_nil_iff.2 rfl
          rw [pastComments_of_nil, pastComments_of_nil]
          exact ⟨p, reflow⟩
      | cons n ns =>
          obtain ⟨r, -, back⟩ := reflow.span_white isPlainSpace_of_isWhite
          rcases Lexeme.agree_comment back with ⟨none, none'⟩ | ⟨found, found', r, cut, -⟩
          · rw [pastComments_of_noComment none, pastComments_of_noComment none']
            exact ⟨r, back⟩
          · obtain ⟨j, length⟩ := Nat.exists_eq_succ_of_ne_zero found
            obtain ⟨k, length'⟩ := Nat.exists_eq_succ_of_ne_zero found'
            rw [pastComments_of_comment length, pastComments_of_comment length']
            rw [length, length'] at cut
            exact ih cut.back (length_drop_dropWhile_le enough) (length_drop_dropWhile_le enough')

theorem continuesLine_of_pauses (pauses : Reflow.Pauses t) :
    continuesLine beforeBody t = false := by
  cases t with
  | nil => rfl
  | cons c t =>
      exact isWhite_cases (P := fun c => continuesLine beforeBody (c :: t) = false) rfl rfl rfl rfl
        (pauses c rfl)

theorem head?_beq_eq (reflow : Reflow p s t q) {d : Char} (visible : isWhite d = false) :
    (s.head? == some d) = (t.head? == some d) := by
  rcases reflow.cases_visible visible with ⟨s, t, rfl, rfl, -, -⟩ | ⟨other, other'⟩
  · rfl
  · rw [beq_eq_false_iff_ne.2 other, beq_eq_false_iff_ne.2 other']

/-- Whether a text begins with a word shows in what stands before the next white space. -/
theorem beginsWord_eq {w : Text} (letters : w.all Char.isAlpha = true) (some : w ≠ [])
    (reflow : Reflow p s t q) : beginsWord w s = beginsWord w t := by
  have apart (c : Char) (white : isWhite c = true) : c.isAlpha = false :=
    isWhite_cases (P := fun c => c.isAlpha = false) (by decide) (by decide) (by decide) (by decide)
      white
  have visible (c : Char) (member : c ∈ w) : isWhite c = false := by
    refine Bool.eq_false_iff.2 fun white => ?_
    exact Bool.eq_false_iff.1 (apart c white) (List.all_eq_true.1 letters c member)
  have scanned (u : Text) : beginsWord w u = decide (0 < Lexeme.fixed w Char.isAlpha u) := by
    have length := List.length_pos_iff.2 some
    unfold beginsWord Lexeme.fixed
    cases Text.stripStart w u with
    | none => rfl
    | some rest =>
        dsimp only
        split
        · next more =>
            rw [more]
            rfl
        · next none =>
            rw [Bool.eq_false_iff.2 none]
            exact (decide_eq_true length).symm
  rw [scanned, scanned, ((Lexeme.tight_fixed visible apart).cut reflow).1]

/-- Whether a statement goes on shows in what stands before the next white space. -/
theorem continuesLine_eq (reflow : Reflow p s t q) :
    continuesLine beforeBody s = continuesLine beforeBody t := by
  rcases reflow.cases_head with ⟨c, s, t, rfl, rfl, visible, one, more⟩ | ⟨pauses, pauses'⟩
  · have whole : Reflow p (c :: s) (c :: t) q := one.append more
    have twice : (s.head? != some c) = (t.head? != some c) :=
      congrArg (!·) (head?_beq_eq more visible)
    have equals : (s.head? == some '=') = (t.head? == some '=') := head?_beq_eq more (by decide)
    have within : beginsWord "in".toList (c :: s) = beginsWord "in".toList (c :: t) :=
      beginsWord_eq (by decide) (by decide) whole
    have ofClass : beginsWord "instanceof".toList (c :: s) = beginsWord "instanceof".toList (c :: t) :=
      beginsWord_eq (by decide) (by decide) whole
    rw [continuesLine, continuesLine, within, ofClass, twice, equals]
  · rw [continuesLine_of_pauses pauses, continuesLine_of_pauses pauses']

/-- Whether a statement ends before what stands next, plain white space on the line aside. -/
def endsBefore (beforeBody : Bool) : Text → Bool
  | [] => true
  | '}' :: rest => (rest.dropWhile isPlainSpace).head? != some ':'
  | '\n' :: rest => !continuesLine beforeBody (pastComments rest rest)
  | _ => false

theorem endsBefore_cons (c : Char) (t : Text) : endsBefore beforeBody (c :: t) =
    if c = '}' then (t.dropWhile isPlainSpace).head? != some ':'
    else c == '\n' && !continuesLine beforeBody (pastComments t t) := by
  by_cases brace : c = '}'
  · subst brace
    rfl
  by_cases lineFeed : c = '\n'
  · subst lineFeed
    rfl
  rw [if_neg brace, beq_eq_false_iff_ne.2 lineFeed, Bool.false_and]
  unfold endsBefore
  split
  · next none => cases none
  · next same =>
      cases same
      exact absurd rfl brace
  · next same =>
      cases same
      exact absurd rfl lineFeed
  · rfl

/-- A statement ends at a place in both texts or in neither, if no line end has been added or taken
away there. -/
theorem endsStatement_eq (reflow : Reflow p s t q) (closed : p.isOpen = false) :
    endsStatement beforeBody s = endsStatement beforeBody t := by
  let onLine (c : Char) : Bool := isPlainSpace c && c != '\n'
  have spacing (c : Char) : isSpacing c = true → onLine c = true :=
    isSpacing_cases (P := fun c => onLine c = true) (by decide) (by decide)
  obtain ⟨r, closed, -, back⟩ := reflow.span (f := onLine) (I := fun p => p.isOpen = false) spacing
    (fun p closed ends => absurd ends (Bool.eq_false_iff.1 closed)) (fun p _ => Bool.and_false _)
    (fun p c _ fits => Layout.isOpen_of_closing (Lexeme.closing_of (by decide) (by decide) fits))
    closed
  have first := Text.head?_dropWhile onLine s
  change endsBefore beforeBody (s.dropWhile onLine) = endsBefore beforeBody (t.dropWhile onLine)
  generalize s.dropWhile onLine = s at back first
  generalize t.dropWhile onLine = t at back
  cases back with
  | nil => rfl
  | @same p q c s t token more =>
      obtain ⟨r, -, plain⟩ := more.span_white isPlainSpace_of_isWhite
      obtain ⟨r, comments⟩ := exists_pastComments more (Nat.le_refl _) (Nat.le_refl _)
      have colon : ((s.dropWhile isPlainSpace).head? != some ':') =
          ((t.dropWhile isPlainSpace).head? != some ':') :=
        congrArg (!·) (head?_beq_eq plain (by decide))
      rw [endsBefore_cons, endsBefore_cons, colon, continuesLine_eq comments]
  | @gap p q g h s t left =>
      obtain ⟨some, all⟩ := left
      cases g with
      | nil => exact absurd rfl some
      | cons c g =>
          have still := spacing c (all c List.mem_cons_self)
          rw [first c rfl] at still
          cases still
  | fold left right ends => exact absurd ends (Bool.eq_false_iff.1 closed)

end

theorem readLineEnd_of_ends {beforeBody : Bool} {c : Cursor}
    (ends : endsStatement beforeBody c.rest = true) (bound : Text) :
    readLineEnd beforeBody bound c = some (c, []) := by
  cases bound <;> rw [readLineEnd, if_pos ends]

theorem readLineEnd_of_noComment {beforeBody : Bool} {c : Cursor}
    (goesOn : endsStatement beforeBody c.rest = false)
    (none : Lexeme.comment c.skipSpace.rest = 0) (b : Char) (bound : Text) :
    readLineEnd beforeBody (b :: bound) c = Option.none := by
  rw [readLineEnd, if_neg (Bool.eq_false_iff.1 goesOn)]
  dsimp only
  rw [none]
  rfl

theorem readLineEnd_of_comment {beforeBody : Bool} {c : Cursor} {k : Nat}
    (goesOn : endsStatement beforeBody c.rest = false)
    (found : Lexeme.comment c.skipSpace.rest = k + 1) (b : Char) (bound : Text) :
    readLineEnd beforeBody (b :: bound) c =
      (readLineEnd beforeBody bound (c.skipSpace.advance (k + 1))).map fun r =>
        (r.1, Tree.leaf .comment c.skipSpace.position (c.skipSpace.rest.take (k + 1)) :: r.2) := by
  rw [readLineEnd, if_neg (Bool.eq_false_iff.1 goesOn)]
  dsimp only
  rw [found]
  rfl

theorem Pair.Steady.endsStatement_eq {beforeBody : Bool} {c d : Cursor} (steady : Steady c d) :
    endsStatement beforeBody c.rest = endsStatement beforeBody d.rest := by
  obtain ⟨p, closed, q, -, reflow⟩ := steady
  exact Syntax.endsStatement_eq reflow closed

/-- Where a statement goes on, something is left of the text. -/
theorem exists_bound_cons {beforeBody : Bool} {c : Cursor} {bound : Text}
    (goesOn : endsStatement beforeBody c.rest = false) (enough : c.rest.length ≤ bound.length) :
    ∃ b more, bound = b :: more := by
  refine List.exists_cons_of_ne_nil fun empty => ?_
  rw [empty] at enough
  rw [List.eq_nil_of_length_eq_zero (Nat.le_zero.1 enough)] at goesOn
  cases goesOn

/-- The end of a statement without a semicolon is read in both texts or in neither. -/
theorem exists_readLineEnd {beforeBody : Bool} {a : Pair} {m n : Text} (beside : Beside a)
    (steady : Steady a.left a.right) (enough : a.left.rest.length ≤ m.length)
    (enough' : a.right.rest.length ≤ n.length) :
    (readLineEnd beforeBody m a.left = none ∧ readLineEnd beforeBody n a.right = none) ∨
    ∃ (b : Pair) (ts us : List Tree), readLineEnd beforeBody m a.left = some (b.left, ts) ∧
      readLineEnd beforeBody n a.right = some (b.right, us) ∧ Twins a ts us b ∧ Beside b ∧
      Steady b.left b.right := by
  induction m generalizing a n with
  | nil =>
      have none : a.left.rest = [] := List.eq_nil_of_length_eq_zero (Nat.le_zero.1 enough)
      have ends : endsStatement beforeBody a.left.rest = true := none ▸ rfl
      rw [readLineEnd_of_ends ends, readLineEnd_of_ends (steady.endsStatement_eq ▸ ends)]
      exact .inr ⟨a, [], [], rfl, rfl, .done (.refl a), beside, steady⟩
  | cons m ms ih =>
      cases ends : endsStatement beforeBody a.left.rest with
      | true =>
          rw [readLineEnd_of_ends ends, readLineEnd_of_ends (steady.endsStatement_eq ▸ ends)]
          exact .inr ⟨a, [], [], rfl, rfl, .done (.refl a), beside, steady⟩
      | false =>
          have goesOn := steady.endsStatement_eq.symm.trans ends
          obtain ⟨n, ns, rfl⟩ := exists_bound_cons goesOn enough'
          rcases cases_skipSpace beside with ⟨none, none', -⟩ |
            ⟨j, k, found, found', d, passed, passed', comment, -, closed, further⟩
          · rw [readLineEnd_of_noComment ends none, readLineEnd_of_noComment goesOn none']
            exact .inl ⟨rfl, rfl⟩
          · rw [readLineEnd_of_comment ends found, readLineEnd_of_comment goesOn found', ← passed,
              ← passed']
            rcases ih further ⟨d.layout, closed, further⟩ (passed ▸ length_pastComment_le enough)
                (passed' ▸ length_pastComment_le enough') with
              ⟨none, none'⟩ | ⟨e, ts, us, stop, stop', more, last, still⟩
            · rw [none, none']
              exact .inl ⟨rfl, rfl⟩
            · rw [stop, stop']
              exact .inr ⟨e, _, _, rfl, rfl, comment.append more, last, still⟩

end ApiReference.Syntax
