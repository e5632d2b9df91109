import ApiReference.Proofs.Syntax.Address
import ApiReference.Syntax.Source

/-!
# Where trees stand in a text

Whatever a rule reads, its trees stand in the text one after the other, each where it says and with
the text it says, and so do the trees within each of them. Main statements: `lays_run`, `lays_read`,
`pairwise_before`.
-/

namespace ApiReference.Syntax

theorem Position.after_append (p : Position) (t u : Text) :
    p.after (t ++ u) = (p.after t).after u := List.foldl_append

theorem Position.row_le_after (p : Position) (t : Text) : p.row ≤ (p.after t).row := by
  induction t generalizing p with
  | nil => exact Nat.le_refl _
  | cons c t ih =>
      refine Nat.le_trans ?_ (ih (p.next c))
      unfold next
      split
      · exact Nat.le_succ p.row
      · exact Nat.le_refl p.row

theorem Position.offset_after (p : Position) (t : Text) :
    (p.after t).offset = p.offset + Text.byteLength t := by
  induction t generalizing p with
  | nil => rfl
  | cons c t ih =>
      have first : (p.next c).offset = p.offset + c.utf8Size := by
        unfold next
        split
        · next lineFeed =>
            subst lineFeed
            rfl
        · rfl
      exact (ih (p.next c)).trans (by rw [first, Text.byteLength, Nat.add_assoc])

theorem dropBytes_append (t u : Text) : dropBytes (Text.byteLength t) (t ++ u) = u := by
  induction t with
  | nil =>
      cases u with
      | nil => rfl
      | cons c u => rw [Text.byteLength, List.nil_append, dropBytes, if_pos c.utf8Size_pos]
  | cons c t ih =>
      rw [Text.byteLength, List.cons_append, dropBytes, if_neg (Nat.not_lt.2 (Nat.le_add_right _ _)),
        Nat.add_sub_cancel_left, ih]

theorem takeBytes_append (t u : Text) : takeBytes (Text.byteLength t) (t ++ u) = t := by
  induction t with
  | nil =>
      cases u with
      | nil => rfl
      | cons c u => rw [Text.byteLength, List.nil_append, takeBytes, if_pos c.utf8Size_pos]
  | cons c t ih =>
      rw [Text.byteLength, List.cons_append, takeBytes, if_neg (Nat.not_lt.2 (Nat.le_add_right _ _)),
        Nat.add_sub_cancel_left, ih]

namespace Cursor

/-- A text stands between two cursors. -/
structure Leads (t : Text) (c d : Cursor) : Prop where
  rest : c.rest = t ++ d.rest
  position : d.position = c.position.after t

def Reaches (c d : Cursor) : Prop := ∃ t, Leads t c d

variable {c d e : Cursor} {t u : Text}

theorem Leads.trans (first : Leads t c d) (second : Leads u d e) : Leads (t ++ u) c e := by
  constructor
  · rw [first.rest, second.rest, List.append_assoc]
  · rw [second.position, first.position, Position.after_append]

theorem leads_advance (c : Cursor) (k : Nat) : Leads (c.rest.take k) c (c.advance k) :=
  ⟨(List.take_append_drop k c.rest).symm, rfl⟩

theorem Reaches.refl (c : Cursor) : Reaches c c := ⟨[], rfl, rfl⟩

theorem Reaches.trans : Reaches c d → Reaches d e → Reaches c e
  | ⟨_, first⟩, ⟨_, second⟩ => ⟨_, first.trans second⟩

theorem Reaches.row_le : Reaches c d → c.position.row ≤ d.position.row
  | ⟨t, leads⟩ => by
    rw [leads.position]
    exact c.position.row_le_after t

theorem reaches_skipSpace (c : Cursor) : Reaches c c.skipSpace := ⟨_, c.leads_advance _⟩

theorem between_eq (first : Leads t c d) (second : Leads u d e) :
    c.between d.position e.position = u := by
  have before : d.position.offset - c.position.offset = Text.byteLength t := by
    rw [first.position, Position.offset_after, Nat.add_sub_cancel_left]
  have length : e.position.offset - d.position.offset = Text.byteLength u := by
    rw [second.position, Position.offset_after, Nat.add_sub_cancel_left]
  rw [between, before, length, first.rest, dropBytes_append, second.rest, takeBytes_append]

end Cursor

open Cursor (Leads Reaches)

/-- Trees stand between two cursors, in order, and so do the children of each of them within it.
There may be other text before, between and after them. -/
inductive Lays : Cursor → List Tree → Cursor → Prop where
  | done {c d : Cursor} (skipped : Reaches c d) : Lays c [] d
  | tree {c b e d : Cursor} {t : Tree} {ts : List Tree} (skipped : Reaches c b)
    (start : t.start = b.position) (text : Leads t.text b e) (inside : Lays b t.children e)
    (after : Lays e ts d) : Lays c (t :: ts) d

namespace Lays
variable {c d e : Cursor} {ts us : List Tree}

theorem reaches (lays : Lays c ts d) : Reaches c d := by
  induction lays with
  | done skipped => exact skipped
  | tree skipped start text inside after _ more => exact skipped.trans (.trans ⟨_, text⟩ more)

theorem of_reaches (skipped : Reaches c d) (lays : Lays d ts e) : Lays c ts e := by
  cases lays with
  | done more => exact .done (skipped.trans more)
  | tree more start text inside after => exact .tree (skipped.trans more) start text inside after

theorem append (first : Lays c ts d) (second : Lays d us e) : Lays c (ts ++ us) e := by
  induction first with
  | done skipped => exact second.of_reaches skipped
  | tree skipped start text inside _ _ ih => exact .tree skipped start text inside (ih second)

theorem exists_of_append (lays : Lays c (ts ++ us) e) : ∃ d, Lays c ts d ∧ Lays d us e := by
  induction ts generalizing c with
  | nil => exact ⟨c, .done (.refl c), lays⟩
  | cons t ts ih =>
      cases lays with
      | tree skipped start text inside after =>
          obtain ⟨d, first, second⟩ := ih after
          exact ⟨d, .tree skipped start text inside first, second⟩

theorem map (f : Tree → Tree)
    (same : ∀ t, (f t).start = t.start ∧ (f t).text = t.text ∧ (f t).children = t.children)
    (lays : Lays c ts d) : Lays c (ts.map f) d := by
  induction ts generalizing c with
  | nil => exact lays
  | cons t ts ih =>
      obtain ⟨start, text, children⟩ := same t
      cases lays with
      | tree skipped begins leads inside after =>
          exact .tree skipped (start.trans begins) (text ▸ leads) (children ▸ inside) (ih after)

theorem leaf (kind : Kind) (c : Cursor) (k : Nat) :
    Lays c [Tree.leaf kind c.position (c.rest.take k)] (c.advance k) :=
  have leads := c.leads_advance k
  .tree (.refl c) rfl leads (.done ⟨_, leads⟩) (.done (.refl _))

end Lays

theorem lays_skipWithin (bound : Text) (c : Cursor) :
    Lays c (c.skipWithin bound).2 (c.skipWithin bound).1 := by
  induction bound generalizing c with
  | nil => exact .done (.refl c)
  | cons b bound ih =>
      unfold Cursor.skipWithin
      refine Lays.of_reaches c.reaches_skipSpace ?_
      dsimp only
      split
      · exact .done (.refl _)
      · exact (Lays.leaf .comment c.skipSpace _).append (ih _)

theorem lays_skip (c : Cursor) : Lays c c.skip.2 c.skip.1 := lays_skipWithin c.rest c

/-- Where a statement ends, nothing but comments has been read, one after the other. -/
theorem readLineEnd_induct {motive : Cursor → List Tree → Prop} {beforeBody : Bool} {bound : Text}
    {c d : Cursor} {ts : List Tree} (stop : motive d [])
    (comment : ∀ (c : Cursor) (k : Nat) (ts : List Tree), motive (c.skipSpace.advance k) ts →
      motive c (Tree.leaf .comment c.skipSpace.position (c.skipSpace.rest.take k) :: ts))
    (read : readLineEnd beforeBody bound c = some (d, ts)) : motive c ts := by
  induction bound generalizing c ts with
  | nil =>
      unfold readLineEnd at read
      split at read
      · cases read
        exact stop
      · cases read
  | cons b bound ih =>
      unfold readLineEnd at read
      split at read
      · cases read
        exact stop
      · dsimp only at read
        split at read
        · cases read
        · obtain ⟨⟨d, more⟩, later, same⟩ := Option.map_eq_some_iff.1 read
          cases same
          exact comment c _ more (ih later)

theorem lays_readLineEnd {beforeBody : Bool} {bound : Text} {c d : Cursor} {ts : List Tree}
    (read : readLineEnd beforeBody bound c = some (d, ts)) : Lays c ts d := by
  refine readLineEnd_induct (motive := fun c ts => Lays c ts d) (.done (.refl d)) ?_ read
  intro c k ts rest
  exact .of_reaches c.reaches_skipSpace ((Lays.leaf .comment c.skipSpace k).append rest)

/-- A tree over what has been read has the text from its first token on. -/
theorem lays_bundle (kind : Kind) {c d : Cursor} {ts : List Tree} (lays : Lays c ts d) :
    Lays c (bundle kind c d ts) d := by
  have whole := List.takeWhile_append_dropWhile (p := Tree.isComment) (l := ts)
  rw [← whole] at lays
  obtain ⟨b, before, tokens⟩ := lays.exists_of_append
  unfold bundle
  split
  · next none =>
      rw [none] at tokens
      rw [← List.append_nil (ts.takeWhile Tree.isComment)]
      exact before.append tokens
  · next first more shape =>
      rw [shape] at tokens
      refine before.append ?_
      cases tokens with
      | @tree _ a e _ _ _ skipped start text inside after =>
          obtain ⟨rest, more⟩ := after.reaches
          obtain ⟨comments, toFirst⟩ := before.reaches.trans skipped
          have whole := text.trans more
          rw [← Cursor.between_eq toFirst whole, ← start] at whole
          exact .tree skipped start whole (.tree (.refl a) start text inside after) (.done (.refl d))

/-- Whatever a rule reads stands in the text, up to where the rule stops. -/
theorem lays_run {N : Type} {grammar : N → Rule N} {fuel : Nat} {rule : Rule N} {c d : Cursor}
    {ts : List Tree} (read : rule.run grammar fuel c = some (d, ts)) : Lays c ts d := by
  induction fuel generalizing rule c d ts with
  | zero => cases read
  | succ n ih =>
      unfold Rule.run at read
      cases rule
      all_goals dsimp only at read
      case empty =>
          cases read
          exact .done (.refl c)
      case leaf kind scan =>
          split at read
          · cases read
          · cases read
            exact (lays_skip c).append (Lays.leaf kind c.skip.1 _)
      case node kind body =>
          obtain ⟨⟨e, trees⟩, inside, same⟩ := Option.map_eq_some_iff.1 read
          cases same
          exact lays_bundle kind (ih inside)
      case role r body =>
          obtain ⟨⟨e, trees⟩, inside, same⟩ := Option.map_eq_some_iff.1 read
          cases same
          refine (ih inside).map _ fun t => ?_
          split
          · exact ⟨rfl, rfl, rfl⟩
          · cases t
            exact ⟨rfl, rfl, rfl⟩
      case seq first second =>
          split at read
          · cases read
          · next middle trees begun =>
              obtain ⟨⟨e, more⟩, ended, same⟩ := Option.map_eq_some_iff.1 read
              cases same
              exact (ih begun).append (ih ended)
      case alt preferred other =>
          split at read
          · next preferred =>
              cases read
              exact ih preferred
          · exact ih read
      case many body =>
          split at read
          · cases read
            exact .done (.refl c)
          · next middle trees begun =>
              split at read
              · obtain ⟨⟨e, more⟩, ended, same⟩ := Option.map_eq_some_iff.1 read
                cases same
                exact (ih begun).append (ih ended)
              · cases read
                exact .done (.refl c)
      case named name => exact ih read
      case ahead body =>
          split at read
          · cases read
            exact .done (.refl c)
          · cases read
      case notAhead body =>
          split at read
          · cases read
          · cases read
            exact .done (.refl c)
      case sameLine =>
          split at read
          · cases read
            exact .done (.refl c)
          · cases read
      case lineEnd beforeBody => exact lays_readLineEnd read
      case missing kind =>
          cases read
          exact .tree (.refl c) rfl ⟨rfl, rfl⟩ (.done (.refl c)) (.done (.refl c))

/-- The trees of a text stand in it one after the other, and so do those within each of them. -/
theorem lays_read (dialect : Dialect) (source : Text) :
    ∃ d, Lays ⟨Position.start, source⟩ (read dialect source).children d := by
  let start : Cursor := ⟨Position.start, source⟩
  let reading :=
    (Grammar.program.run (grammar dialect) (nestingBound source.length) start).getD (start, [])
  have program : Lays start reading.2 reading.1 := by
    dsimp only [reading]
    cases found : Grammar.program.run (grammar dialect) (nestingBound source.length) start with
    | none => exact .done (.refl start)
    | some reading => exact lays_run found
  have comments := program.append (lays_skip reading.1)
  let stop := reading.1.skip.1
  have left := Lays.leaf .unreadable stop stop.rest.length
  rw [List.take_length] at left
  change ∃ d, Lays start (reading.2 ++ reading.1.skip.2 ++
    if stop.rest.isEmpty then [] else [Tree.leaf .unreadable stop.position stop.rest]) d
  split
  · exact ⟨stop, (List.append_nil _).symm ▸ comments⟩
  · exact ⟨_, comments.append left⟩

namespace Focus
variable {t : Tree} {f : Focus}

theorem descend?_concat (f : Focus) (path : List Nat) (i : Nat) :
    f.descend? (path ++ [i]) =
      (f.descend? path).bind fun g => g.tree.children[i]?.map fun t => g.child i t := by
  induction path generalizing f with
  | nil =>
      rw [List.nil_append, descend?, descend?, Option.bind_some, Option.map_eq_bind]
      rfl
  | cons j path ih =>
      rw [List.cons_append, descend?, descend?, Option.bind_assoc]
      exact Option.bind_congr fun u _ => ih (f.child j u)

theorem parent_of_mem_visit {s : Tree} {frame : Frame} {above : List Frame}
    (member : ⟨s, frame :: above⟩ ∈ visit [] t) :
    ⟨frame.parent, above⟩ ∈ visit [] t ∧
      ∃ after, frame.parent.children = frame.before.reverse ++ s :: after := by
  have found := (descend?_root t _ _).2 ⟨member, rfl⟩
  rw [address, List.map_cons, List.reverse_cons, descend?_concat] at found
  generalize frame.before.length = i at found
  obtain ⟨g, outer, inner⟩ := Option.bind_eq_some_iff.1 found
  obtain ⟨u, listed, same⟩ := Option.map_eq_some_iff.1 inner
  obtain ⟨inside, here⟩ := List.getElem?_eq_some_iff.1 listed
  cases same
  refine ⟨((descend?_root t _ g).1 outer).1, g.tree.children.drop (i + 1), ?_⟩
  rw [List.reverse_reverse, ← here, ← List.drop_eq_getElem_cons inside, List.take_append_drop]

theorem tree_of_mem_visit {s : Tree} (member : ⟨s, []⟩ ∈ visit [] t) : s = t := by
  have found := (descend?_root t _ _).2 ⟨member, rfl⟩
  exact (congrArg tree (Option.some.inj found)).symm

end Focus

open Focus (visit)

/-- The children of every tree in a text stand in it one after the other. -/
theorem lays_of_mem_visit {dialect : Dialect} {source : Text} {s : Tree} {above : List Frame}
    (member : ⟨s, above⟩ ∈ visit [] (read dialect source)) : ∃ c d, Lays c s.children d := by
  induction above generalizing s with
  | nil =>
      rw [Focus.tree_of_mem_visit member]
      exact ⟨_, lays_read dialect source⟩
  | cons frame above ih =>
      obtain ⟨outer, after, children⟩ := Focus.parent_of_mem_visit member
      obtain ⟨c, d, lays⟩ := ih outer
      rw [children] at lays
      obtain ⟨b, -, rest⟩ := lays.exists_of_append
      cases rest with
      | tree skipped start text inside after => exact ⟨_, _, inside⟩

namespace Lays
variable {c d : Cursor} {ts : List Tree}

theorem row_le_start (lays : Lays c ts d) : ∀ t ∈ ts, c.position.row ≤ t.start.row := by
  induction lays with
  | done => exact List.forall_mem_nil _
  | tree skipped start text inside after _ ih =>
      refine List.forall_mem_cons.2 ⟨start ▸ skipped.row_le, fun u member => ?_⟩
      exact Nat.le_trans (skipped.trans ⟨_, text⟩).row_le (ih u member)

/-- No tree starts on a line before that on which one before it ends. -/
theorem pairwise (lays : Lays c ts d) : ts.Pairwise fun t u => t.stop.row ≤ u.start.row := by
  induction lays with
  | done => exact .nil
  | @tree c b e d t ts skipped start text inside after _ ih =>
      have stop : t.stop = e.position := by rw [Tree.stop, start, text.position]
      exact .cons (fun u member => stop ▸ after.row_le_start u member) ih

end Lays

theorem Tree.row_le_stop (t : Tree) : t.start.row ≤ t.stop.row := t.start.row_le_after t.text

theorem pairwise_before {dialect : Dialect} {source : Text} {f : Focus}
    (member : f ∈ visit [] (read dialect source)) :
    (f.tree :: f.before).Pairwise fun u t => t.stop.row ≤ u.start.row := by
  obtain ⟨s, _ | ⟨frame, above⟩⟩ := f
  · exact List.pairwise_singleton _ _
  · obtain ⟨outer, after, children⟩ := Focus.parent_of_mem_visit member
    obtain ⟨c, d, lays⟩ := lays_of_mem_visit outer
    rw [children] at lays
    have ordered := lays.pairwise
    rw [← List.singleton_append, ← List.append_assoc, ← List.reverse_cons] at ordered
    exact List.pairwise_reverse.1 (List.pairwise_append.1 ordered).1

end ApiReference.Syntax
