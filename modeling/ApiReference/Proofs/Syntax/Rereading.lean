import ApiReference.Proofs.Syntax.Constructs
import ApiReference.Proofs.Syntax.Gaps

/-!
# Texts laid out anew are read alike

Whatever a rule reads in one of two texts that differ only in their gaps, it reads in the other. A rule
that asks where the line ends is never asked where a line end may have been added or taken away. Main
statements: `Reads.alongside`, `twins_read`, `copy_read`.
-/

namespace ApiReference.Syntax

open Pair

namespace Twins
variable {a b : Pair} {ts us : List Tree}

/-- The comments before the first token, and what stands from there on. -/
theorem exists_comments (twins : Twins a ts us b) : ∃ m : Pair,
    Twins a (ts.takeWhile Tree.isComment) (us.takeWhile Tree.isComment) m ∧
      Twins m (ts.dropWhile Tree.isComment) (us.dropWhile Tree.isComment) b := by
  induction twins with
  | @done a b skipped => exact ⟨b, .done skipped, .done (.refl b)⟩
  | @tree a b d e t t' ts us skipped start start' like text inside after _ ih =>
      have same : t'.isComment = t.isComment := congrArg (· == Kind.comment) like.kind
      cases comment : t.isComment with
      | true =>
          rw [comment] at same
          rw [List.takeWhile_cons_of_pos comment, List.takeWhile_cons_of_pos same,
            List.dropWhile_cons_of_pos comment, List.dropWhile_cons_of_pos same]
          obtain ⟨m, before, rest⟩ := ih
          exact ⟨m, .tree skipped start start' like text inside before, rest⟩
      | false =>
          rw [comment] at same
          have other := Bool.eq_false_iff.1 comment
          have other' := Bool.eq_false_iff.1 same
          rw [List.takeWhile_cons_of_neg other, List.takeWhile_cons_of_neg other',
            List.dropWhile_cons_of_neg other, List.dropWhile_cons_of_neg other']
          exact ⟨a, .done (.refl a), .tree skipped start start' like text inside after⟩

theorem bundle (kind : Kind) (twins : Twins a ts us b) :
    Twins a (bundle kind a.left b.left ts) (bundle kind a.right b.right us) b := by
  obtain ⟨m, before, tokens⟩ := twins.exists_comments
  unfold Syntax.bundle
  generalize ts.dropWhile Tree.isComment = ts' at tokens
  generalize us.dropWhile Tree.isComment = us' at tokens
  cases tokens with
  | done skipped =>
      have whole := before.append (.done skipped)
      rwa [List.append_nil, List.append_nil] at whole
  | @tree _ e _ _ t t' _ _ skipped start start' like text inside after =>
      refine before.append ?_
      obtain ⟨s, s', more⟩ := after.together
      obtain ⟨u, v, toFirst⟩ := before.together.trans skipped
      have whole := text.trans more
      rw [← Cursor.between_eq toFirst.left whole.left, ← Cursor.between_eq toFirst.right whole.right,
        ← start, ← start'] at whole
      exact .tree skipped start start' ⟨rfl, rfl, rfl⟩ whole
        (.tree (.refl e) start start' like text inside after) (.done (.refl b))

theorem inRole (r : Role) (twins : Twins a ts us b) :
    Twins a (ts.map fun t => if t.isComment then t else t.withRole r)
      (us.map fun t => if t.isComment then t else t.withRole r) b := by
  induction twins with
  | done skipped => exact .done skipped
  | @tree a b d e t t' ts us skipped start start' like text inside after _ ih =>
      have same : t'.isComment = t.isComment := congrArg (· == Kind.comment) like.kind
      obtain ⟨l, children⟩ := t
      obtain ⟨l', children'⟩ := t'
      rw [List.map_cons, List.map_cons, same]
      split
      · exact .tree skipped start start' like text inside ih
      · exact .tree skipped start start' ⟨like.kind, rfl, like.missing⟩ text inside ih

end Twins

/-- A token comes next, behind nothing but white space. -/
def TokenNext (t : Text) : Prop :=
  ∃ g c s, t = g ++ c :: s ∧ (∀ d ∈ g, isWhite d = true) ∧ beginsToken c = true

/-- Behind a semicolon or an opening brace nothing depends on which character it was. -/
theorem Layout.next_of_isOpen {p : Layout} (ends : p.isOpen = true) (c : Char) :
    Layout.next ⟨p.free, ' ', p.folded⟩ c = p.next c := by
  obtain ⟨free, last, folded⟩ := p
  simp only [isOpen, Bool.and_eq_true, Bool.or_eq_true, beq_iff_eq] at ends
  rcases ends.2 with rfl | rfl <;> simp [next, beginsLineBound]

/-- Where a line end has been added or taken away, a token comes next. -/
theorem Pair.Beside.steady_or_tokenNext {a : Pair} (beside : Beside a) :
    Steady a.left a.right ∨ TokenNext a.left.rest := by
  obtain ⟨p, ⟨position, s⟩, ⟨position', t⟩⟩ := a
  obtain ⟨q, solid, reflow⟩ := beside
  dsimp only at reflow ⊢
  let shut : Layout := ⟨p.free, ' ', p.folded⟩
  have closed : shut.isOpen = false := Bool.and_false _
  cases ends : p.isOpen with
  | false => exact .inl ⟨p, ends, q, solid, reflow⟩
  | true =>
      cases reflow with
      | nil => exact .inl ⟨shut, closed, shut, solid, .nil⟩
      | same token more =>
          rw [← Layout.next_of_isOpen ends] at more
          exact .inl ⟨shut, closed, q, solid, .same token more⟩
      | gap left right unescaped token more =>
          have unescaped' : ' ' ≠ '\\' := by decide
          exact .inl ⟨shut, closed, q, solid, .gap left right unescaped' token more⟩
      | fold left right _ more =>
          refine .inr ?_
          cases more with
          | nil => cases solid
          | same token => exact ⟨_, _, _, rfl, left.2, token rfl⟩
          | gap _ _ _ token => cases token
          | fold _ _ ends => exact absurd ends (by decide)

theorem Lexeme.any_ne_zero {t : Text} (some : t ≠ []) : any t ≠ 0 := by
  rw [any_eq]
  split
  · assumption
  · split
    · assumption
    · split
      · assumption
      · rw [if_neg (mt List.isEmpty_iff.1 some)]
        exact Nat.one_ne_zero

theorem skip_rest_ne_nil {c : Cursor} (next : TokenNext c.rest) : c.skip.1.rest ≠ [] := by
  obtain ⟨g, d, s, rest, white, token⟩ := next
  obtain ⟨visible, other⟩ := Bool.and_eq_true_iff.1 token
  have space : Lexeme.isSpace d = false := by simpa using visible
  have slash : d ≠ '/' := by simpa using other
  have spaces : c.skipSpace.rest = d :: s := by
    rw [c.rest_skipSpace, rest]
    refine Text.dropWhile_run (fun e member => isSpace_of_isWhite e (white e member)) fun e first => ?_
    cases first
    exact space
  have none : Lexeme.comment c.skipSpace.rest = 0 := by
    rw [spaces]
    exact Lexeme.comment_of_ne fun first => slash (Option.some.inj first)
  rw [Cursor.skip]
  cases whole : c.rest with
  | nil =>
      rw [whole] at rest
      exact absurd rest (List.append_ne_nil_of_right_ne_nil g (List.cons_ne_nil d s)).symm
  | cons e t =>
      rw [Cursor.skipWithin_of_noComment none, spaces]
      exact List.cons_ne_nil d s

section
variable {dialect : Dialect} {rule : Grammar.R} {c : Cursor} {o : Option (Cursor × List Tree)}

theorem Cursor.Reaches.rest_eq {d e : Cursor} (first : Reaches c d) (second : Reaches d e)
    (stays : e.rest = c.rest) : d.rest = c.rest := by
  have le := first.length_le
  have le' := second.length_le
  obtain ⟨t, rest, -⟩ := first
  rw [stays, rest, List.length_append] at le'
  have none : t = [] := List.eq_nil_of_length_eq_zero (by omega)
  rw [rest, none, List.nil_append]

/-- A rule that succeeds without reading anything where a token comes next may do so. -/
theorem Reads.idles_of_stays (reads : Reads (grammar dialect) rule c o)
    (leaves : rule.EveryToken Leaf) (next : TokenNext c.rest) :
    ∀ r ∈ o, r.1.rest = c.rest → rule.idles = true := by
  have moves {rule : Grammar.R} {c : Cursor} {o : Option (Cursor × List Tree)}
      (reads : Reads (grammar dialect) rule c o) (leaves : rule.EveryToken Leaf)
      (solid : rule.nullable = false) : ∀ r ∈ o, r.1.rest = c.rest → rule.idles = true := by
    intro r found stays
    have less := reads.length_lt (ranked_grammar dialect)
      (leaves.mono fun _ _ leaf => leaf.known.nil) solid r found
    rw [stays] at less
    exact absurd less (Nat.lt_irrefl _)
  induction reads with
  | noToken | seqNone => exact nofun
  | token found => exact moves (.token found) leaves rfl
  | named inside => exact moves (.named inside) leaves rfl
  | node _ ih | role _ ih =>
      intro r found stays
      obtain ⟨s, inside, rfl⟩ := Option.map_eq_some_iff.1 found
      exact ih leaves next s inside stays
  | seq begun ended first second =>
      intro r found stays
      obtain ⟨s, last, rfl⟩ := Option.map_eq_some_iff.1 found
      have still := (begun.reaches _ rfl).rest_eq (ended.reaches s last) stays
      refine Bool.and_eq_true_iff.2 ⟨first leaves.1 next _ rfl still, ?_⟩
      exact second leaves.2 (still.symm ▸ next) s last (stays.trans still.symm)
  | preferred _ ih =>
      exact fun r found stays => Bool.or_eq_true_iff.2 (.inl (ih leaves.1 next r found stays))
  | other _ _ _ ih =>
      exact fun r found stays => Bool.or_eq_true_iff.2 (.inr (ih leaves.2 next r found stays))
  | @notAhead body c o seen =>
      intro r found _
      cases body with
      | leaf kind scan =>
          cases kind with
          | unreadable =>
            have any : scan = Lexeme.any := Leaf.unreadable leaves rfl
            subst any
            cases seen with
            | noToken absent => exact absurd absent (Lexeme.any_ne_zero (skip_rest_ne_nil next))
            | token => cases found
          | _ => rfl
      | _ => rfl
  | _ => exact fun _ _ _ => rfl

end

/-- What a rule reads in two texts: nothing in either of them, or trees alike up to a pair of places.
Behind these a line end may have been added or taken away only if the rule may end in a semicolon or
an opening brace or has not moved. -/
inductive Alongside (rule : Grammar.R) (a : Pair) :
    Option (Cursor × List Tree) → Option (Cursor × List Tree) → Prop where
  | none : Alongside rule a none none
  | some {b : Pair} {ts us : List Tree} (twins : Twins a ts us b) (beside : Beside b)
      (behind : Steady b.left b.right ∨ rule.opens = true ∨ b = a) :
      Alongside rule a (some (b.left, ts)) (some (b.right, us))

section
variable {dialect : Dialect} {rule : Grammar.R} {p : Layout} {c c' : Cursor}
variable {o : Option (Cursor × List Tree)}

theorem Pair.Together.offset_lt_iff {a b : Pair} (together : Together a b) :
    a.left.position.offset < b.left.position.offset ↔
      a.right.position.offset < b.right.position.offset := by
  obtain ⟨u, v, moves⟩ := together
  have some {t : Text} : t ≠ [] ↔ 0 < Text.byteLength t := by
    cases t with
    | nil => exact iff_of_false (not_not.2 rfl) (Nat.lt_irrefl 0)
    | cons c t =>
        refine iff_of_true (List.cons_ne_nil c t) ?_
        exact Nat.lt_of_lt_of_le c.utf8Size_pos (Nat.le_add_right _ _)
  rw [moves.left.position, moves.right.position, Position.offset_after, Position.offset_after,
    Nat.lt_add_right_iff_pos, Nat.lt_add_right_iff_pos, ← some, ← some]
  exact not_congr moves.reflow.eq_nil_iff

theorem Pair.Steady.row_skip_eq {c c' : Cursor} (steady : Steady c c') :
    (c.skip.1.position.row == c.position.row) = (c'.skip.1.position.row == c'.position.row) := by
  obtain ⟨p, closed, beside⟩ := steady
  obtain ⟨b, left, right, -, quietly, -⟩ := exists_skip beside
  dsimp only at left right
  rw [← left, ← right]
  exact Bool.eq_iff_iff.2 (by simpa using quietly.row_eq_iff closed)

/-- A token is read in both texts or in neither. -/
theorem exists_token (kind : Kind) {scan : Text → Nat} (leaf : Leaf kind scan)
    (beside : Beside ⟨p, c, c'⟩) :
    (scan c.skip.1.rest = 0 ∧ scan c'.skip.1.rest = 0) ∨
    (scan c.skip.1.rest ≠ 0 ∧ scan c'.skip.1.rest ≠ 0 ∧ ∃ b : Pair,
      b.left = c.skip.1.advance (scan c.skip.1.rest) ∧
      b.right = c'.skip.1.advance (scan c'.skip.1.rest) ∧
      Twins ⟨p, c, c'⟩
        (c.skip.2 ++ [Tree.leaf kind c.skip.1.position (c.skip.1.rest.take (scan c.skip.1.rest))])
        (c'.skip.2 ++
          [Tree.leaf kind c'.skip.1.position (c'.skip.1.rest.take (scan c'.skip.1.rest))]) b ∧
      Beside b ∧ (Lexeme.Shuts scan c.skip.1.rest → Steady b.left b.right)) := by
  obtain ⟨b, left, right, comments, -, behind⟩ := exists_skip beside
  have visible := c.head?_skip
  dsimp only at left right
  rw [← left] at visible ⊢
  rw [← right]
  obtain ⟨q, solid, reflow⟩ := behind
  refine (leaf.known.cutsAlike visible reflow).imp_right fun ⟨found, found', r, cut, closed⟩ => ?_
  have further := beside_advance cut solid
  exact ⟨found, found', b.advance r _ _, rfl, rfl, comments.append (.leaf kind (moves_advance cut)),
    further, fun never => ⟨r, closed never, further⟩⟩

variable {first second : Grammar.R} {a b e : Pair} {ts us : List Tree}

/-- Behind one rule the next one may ask where the line ends. -/
theorem Reads.steady_or_asks_eq_false (begun : Reads (grammar dialect) first a.left (some (b.left, ts)))
    (leaves : first.EveryToken Leaf) (apart : (!(first.opens && second.asks)) = true)
    (beside : Beside a) (asked : Steady a.left a.right ∨ (Rule.seq first second).asks = false)
    (behind : Steady b.left b.right ∨ first.opens = true ∨ b = a) :
    Steady b.left b.right ∨ second.asks = false := by
  rcases behind with steady | opens | rfl
  · exact .inl steady
  · rw [opens, Bool.true_and] at apart
    exact .inr ((Bool.not_eq_true' _).mp apart)
  · rcases asked with steady | never
    · exact .inl steady
    · rcases beside.steady_or_tokenNext with steady | next
      · exact .inl steady
      · have idles := begun.idles_of_stays leaves next _ rfl rfl
        have rest := (Bool.or_eq_false_iff.1 never).2
        rw [idles, Bool.true_and] at rest
        exact .inr rest

theorem Lexeme.ne_of_mark_eq_zero {m : Char} {t : Text} (none : mark [m] [] t = 0) {d : Char}
    (first : d ∈ t.head?) : d ≠ m := by
  rintro rfl
  cases t with
  | nil => cases first
  | cons c t =>
      obtain rfl : c = d := Option.some.inj first
      have strip : Text.stripStart [c] (c :: t) = some t := Text.stripStart_append [c] t
      rw [mark, strip] at none
      dsimp only at none
      cases t <;> cases none

theorem Rule.exists_of_guards (guards : Rule.guards first second = true) :
    ∃ (semicolon brace scan : Text → Nat) (kind : Kind), scan ['<'] ≠ 0 ∧
      first = .notAhead (.leaf (.token [';']) semicolon) ∧
      second = .seq (.notAhead (.leaf (.token ['{']) brace))
        (.seq .sameLine (.seq (.leaf kind scan) .empty)) := by
  unfold Rule.guards at guards
  split at guards
  · exact ⟨_, _, _, _, bne_iff_ne.1 guards, rfl, rfl⟩
  · cases guards

theorem Reads.of_guards {semicolon brace scan : Text → Nat} {kind : Kind} {c d e : Cursor}
    {ts us : List Tree}
    (begun : Reads (grammar dialect) (.notAhead (.leaf (.token [';']) semicolon)) c (some (d, ts)))
    (ended : Reads (grammar dialect) (.seq (.notAhead (.leaf (.token ['{']) brace))
      (.seq .sameLine (.seq (.leaf kind scan) .empty))) d (some (e, us))) :
    semicolon c.skip.1.rest = 0 ∧ brace c.skip.1.rest = 0 ∧ scan c.skip.1.rest ≠ 0 ∧
      e = c.skip.1.advance (scan c.skip.1.rest) := by
  obtain ⟨absent, same⟩ := begun.of_notAhead
  cases same
  obtain ⟨m, _, _, before, rest⟩ := ended.of_seq
  obtain ⟨absent', same⟩ := before.of_notAhead
  cases same
  obtain ⟨m, _, _, line, rest⟩ := rest.of_seq
  cases line.of_sameLine
  obtain ⟨m, _, _, token, done⟩ := rest.of_seq
  cases absent with
  | noToken absent =>
      cases absent' with
      | noToken absent' =>
          cases token with
          | token found =>
              cases done
              exact ⟨absent, absent', found, rfl⟩

/-- What two rules one after the other leave behind. -/
theorem Reads.behind_seq {ts' us' : List Tree}
    (begun : Reads (grammar dialect) first a.left (some (b.left, ts)))
    (ended : Reads (grammar dialect) second b.left (some (e.left, us)))
    (begun' : Reads (grammar dialect) first a.right (some (b.right, ts')))
    (ended' : Reads (grammar dialect) second b.right (some (e.right, us')))
    (leaves : (Rule.seq first second).EveryToken Leaf) (beside : Beside a) (between : Beside b)
    (asked : Steady a.left a.right ∨ (Rule.seq first second).asks = false)
    (behind : Steady b.left b.right ∨ first.opens = true ∨ b = a)
    (ending : Steady e.left e.right ∨ second.opens = true ∨ e = b) :
    Steady e.left e.right ∨ (Rule.seq first second).opens = true ∨ e = a := by
  cases guards : Rule.guards first second with
  | true =>
      obtain ⟨semicolon, brace, scan, kind, angle, rfl, rfl⟩ := Rule.exists_of_guards guards
      obtain ⟨noSemicolon, noBrace, found, stop⟩ := begun.of_guards ended
      obtain ⟨-, -, -, stop'⟩ := begun'.of_guards ended'
      obtain ⟨leafSemicolon, leafBrace, -, leaf, -⟩ := leaves
      rw [Leaf.opening leafSemicolon [';'] rfl (.inl rfl)] at noSemicolon
      rw [Leaf.opening leafBrace ['{'] rfl (.inr rfl)] at noBrace
      have closing : ∀ d ∈ a.left.skip.1.rest.head?, Lexeme.Closing d := fun d first =>
        ⟨Lexeme.ne_of_mark_eq_zero noSemicolon first, Lexeme.ne_of_mark_eq_zero noBrace first⟩
      rcases exists_token (p := a.layout) kind leaf beside with
        ⟨absent, -⟩ | ⟨-, -, f, left, right, -, -, closed⟩
      · exact absurd absent found
      · rw [left, right, ← stop, ← stop'] at closed
        exact .inl (closed (.inr ⟨angle, closing⟩))
  | false =>
      have opens : (Rule.seq first second).opens =
          (second.opens || (second.idles && first.opens)) := by
        rw [Rule.opens, guards, Bool.not_false, Bool.true_and]
      rw [opens]
      rcases ending with steady | opens | rfl
      · exact .inl steady
      · exact .inr (.inl (Bool.or_eq_true_iff.2 (.inl opens)))
      · rcases behind with steady | opens | rfl
        · exact .inl steady
        · rcases between.steady_or_tokenNext with steady | next
          · exact .inl steady
          · have idles := ended.idles_of_stays leaves.2 next _ rfl rfl
            refine .inr (.inl (Bool.or_eq_true_iff.2 (.inr ?_)))
            rw [idles, opens]
            rfl
        · exact .inr (.inr rfl)

namespace Alongside
variable {rule body : Grammar.R} {o o' : Option (Cursor × List Tree)}

/-- A rule that reads nothing leaves both texts where they were. -/
theorem stays (beside : Beside a) :
    Alongside rule a (.some (a.left, [])) (.some (a.right, [])) :=
  .some (.done (.refl a)) beside (.inr (.inr rfl))

theorem mono (same : Alongside body a o o') (opens : body.opens = true → rule.opens = true) :
    Alongside rule a o o' := by
  cases same with
  | none => exact .none
  | some twins further behind => exact .some twins further (behind.imp_right (.imp_left opens))

theorem node (kind : Kind) (same : Alongside body a o o') :
    Alongside (.node kind body) a (o.map fun r => (r.1, bundle kind a.left r.1 r.2))
      (o'.map fun r => (r.1, bundle kind a.right r.1 r.2)) := by
  cases same with
  | none => exact .none
  | some twins further behind => exact .some (twins.bundle kind) further behind

theorem role (r : Role) (same : Alongside body a o o') :
    Alongside (.role r body) a
      (o.map fun s => (s.1, s.2.map fun t => if t.isComment then t else t.withRole r))
      (o'.map fun s => (s.1, s.2.map fun t => if t.isComment then t else t.withRole r)) := by
  cases same with
  | none => exact .none
  | some twins further behind => exact .some (twins.inRole r) further behind

/-- What one rule reads behind trees read in both texts, as part of a larger rule. -/
theorem after (twins : Twins a ts us b) (same : Alongside body b o o')
    (ending : ∀ {e : Pair} {vs ws : List Tree}, o = .some (e.left, vs) → o' = .some (e.right, ws) →
      (Steady e.left e.right ∨ body.opens = true ∨ e = b) →
        Steady e.left e.right ∨ rule.opens = true ∨ e = a) :
    Alongside rule a (o.map fun r => (r.1, ts ++ r.2)) (o'.map fun r => (r.1, us ++ r.2)) := by
  cases same with
  | none => exact .none
  | some more last behind => exact .some (twins.append more) last (ending rfl rfl behind)

theorem ahead (beside : Beside a) (same : Alongside body a o o') :
    Alongside rule a (if o.isSome then .some (a.left, []) else .none)
      (if o'.isSome then .some (a.right, []) else .none) := by
  cases same with
  | none => exact .none
  | some => exact stays beside

theorem notAhead (beside : Beside a) (same : Alongside body a o o') :
    Alongside rule a (if o.isSome then .none else .some (a.left, []))
      (if o'.isSome then .none else .some (a.right, [])) := by
  cases same with
  | none => exact stays beside
  | some => exact .none

theorem sameLine (beside : Beside a) (steady : Steady a.left a.right) :
    Alongside rule a
      (if a.left.skip.1.position.row == a.left.position.row then .some (a.left, []) else .none)
      (if a.right.skip.1.position.row == a.right.position.row then .some (a.right, []) else .none) := by
  rw [← steady.row_skip_eq]
  split
  · exact stays beside
  · exact .none

theorem lineEnd (beforeBody : Bool) (beside : Beside a) (steady : Steady a.left a.right) :
    Alongside rule a (readLineEnd beforeBody a.left.rest a.left)
      (readLineEnd beforeBody a.right.rest a.right) := by
  rcases exists_readLineEnd beside steady (Nat.le_refl _) (Nat.le_refl _) with
    ⟨none, none'⟩ | ⟨b, ts, us, stop, stop', twins, further, still⟩
  · rw [none, none']
    exact .none
  · rw [stop, stop']
    exact .some twins further (.inl still)

theorem missing (kind : Kind) (beside : Beside a) :
    Alongside rule a (.some (a.left, [Tree.node ⟨kind, .none, a.left.position, [], true⟩ []]))
      (.some (a.right, [Tree.node ⟨kind, .none, a.right.position, [], true⟩ []])) :=
  .some (.tree (.refl a) rfl rfl ⟨rfl, rfl, rfl⟩ (Moves.refl a) (.done (.refl a)) (.done (.refl a)))
    beside (.inr (.inr rfl))

end Alongside

/-- Behind one run of a repeated rule the next one may ask where the line ends. -/
theorem Rule.steady_or_asks_many (apart : (!(first.opens && first.asks)) = true)
    (asked : Steady a.left a.right ∨ (Rule.many first).asks = false)
    (behind : Steady b.left b.right ∨ first.opens = true ∨ b = a) :
    Steady b.left b.right ∨ (Rule.many first).asks = false := by
  rcases behind with steady | opens | rfl
  · exact .inl steady
  · rw [opens, Bool.true_and] at apart
    exact .inr ((Bool.not_eq_true' _).mp apart)
  · exact asked

/-- What is read in one text is read in the other. -/
theorem Reads.alongside (reads : Reads (grammar dialect) rule c o) (leaves : rule.EveryToken Leaf)
    (safe : rule.safe = true) (beside : Beside ⟨p, c, c'⟩)
    (asked : Steady c c' ∨ rule.asks = false) :
    ∃ o', Reads (grammar dialect) rule c' o' ∧ Alongside rule ⟨p, c, c'⟩ o o' := by
  -- The layout and the second text vary along the reading: each part starts where the one before it
  -- has led both texts.
  induction reads generalizing p c' with
  | empty => exact ⟨_, .empty, .stays beside⟩
  | noToken absent =>
      rcases exists_token _ leaves beside with ⟨-, absent'⟩ | ⟨found, -⟩
      · exact ⟨none, .noToken absent', .none⟩
      · exact absurd absent found
  | @token kind scan c found =>
      rcases exists_token kind leaves beside with
        ⟨absent, -⟩ | ⟨-, found', b, left, right, twins, behind, closed⟩
      · exact absurd absent found
      · refine ⟨_, .token found', ?_⟩
        rw [← left, ← right]
        refine .some twins behind ?_
        cases opens : Lexeme.mayOpen scan with
        | false => exact .inl (closed (.inl opens))
        | true => exact .inr (.inl opens)
  | node _ ih =>
      obtain ⟨o', inside', same⟩ := ih leaves safe beside asked
      exact ⟨_, .node inside', same.node _⟩
  | role _ ih =>
      obtain ⟨o', inside', same⟩ := ih leaves safe beside asked
      exact ⟨_, .role inside', same.role _⟩
  | seqNone begun ih =>
      obtain ⟨safeFirst, -⟩ := Bool.and_eq_true_iff.1 (Bool.and_eq_true_iff.1 safe).1
      obtain ⟨o', begun', same⟩ := ih leaves.1 safeFirst beside
        (asked.imp_right fun never => (Bool.or_eq_false_iff.1 never).1)
      cases same
      exact ⟨none, .seqNone begun', .none⟩
  | seq begun ended ihFirst ihSecond =>
      obtain ⟨safeBoth, apart⟩ := Bool.and_eq_true_iff.1 safe
      obtain ⟨safeFirst, safeSecond⟩ := Bool.and_eq_true_iff.1 safeBoth
      obtain ⟨o', begun', same⟩ := ihFirst leaves.1 safeFirst beside
        (asked.imp_right fun never => (Bool.or_eq_false_iff.1 never).1)
      cases same with
      | some twins between behind =>
          have askedSecond := begun.steady_or_asks_eq_false leaves.1 apart beside asked behind
          obtain ⟨o'', ended', same⟩ := ihSecond leaves.2 safeSecond between askedSecond
          refine ⟨_, .seq begun' ended', same.after twins ?_⟩
          rintro e _ _ rfl rfl ending
          exact begun.behind_seq ended begun' ended' leaves beside between asked behind ending
  | preferred fits ih =>
      obtain ⟨o', fits', same⟩ := ih leaves.1 (Bool.and_eq_true_iff.1 safe).1 beside
        (asked.imp_right fun never => (Bool.or_eq_false_iff.1 never).1)
      cases same with
      | some twins further behind =>
          refine ⟨_, .preferred fits', .mono (.some twins further behind) fun opens => ?_⟩
          exact Bool.or_eq_true_iff.2 (.inl opens)
  | other unfit instead first second =>
      obtain ⟨o', unfit', same⟩ := first leaves.1 (Bool.and_eq_true_iff.1 safe).1 beside
        (asked.imp_right fun never => (Bool.or_eq_false_iff.1 never).1)
      cases same
      obtain ⟨o', instead', same⟩ := second leaves.2 (Bool.and_eq_true_iff.1 safe).2 beside
        (asked.imp_right fun never => (Bool.or_eq_false_iff.1 never).2)
      exact ⟨_, .other unfit' instead', same.mono fun opens => Bool.or_eq_true_iff.2 (.inr opens)⟩
  | manyNone none ih =>
      obtain ⟨o', none', same⟩ := ih leaves (Bool.and_eq_true_iff.1 safe).1 beside asked
      cases same
      exact ⟨_, .manyNone none', .stays beside⟩
  | manyIdle idle still ih =>
      obtain ⟨o', idle', same⟩ := ih leaves (Bool.and_eq_true_iff.1 safe).1 beside asked
      cases same with
      | some twins =>
          have still' := mt twins.together.offset_lt_iff.2 still
          exact ⟨_, .manyIdle idle' still', .stays beside⟩
  | many one moves more first rest =>
      obtain ⟨safeBody, apart⟩ := Bool.and_eq_true_iff.1 safe
      obtain ⟨o', one', same⟩ := first leaves safeBody beside asked
      cases same with
      | some twins between behind =>
          have askedAgain := Rule.steady_or_asks_many apart asked behind
          obtain ⟨o'', more', same⟩ := rest leaves safe between askedAgain
          have moves' := twins.together.offset_lt_iff.1 moves
          refine ⟨_, .many one' moves' more', same.after twins fun _ _ ending => ?_⟩
          rcases ending with steady | opens | rfl
          · exact .inl steady
          · exact .inr (.inl opens)
          · exact behind
  | named _ ih =>
      obtain ⟨safe, asks, opens⟩ := Rule.sound_grammar dialect _
      obtain ⟨o', inside', same⟩ := ih (leaf_grammar dialect _) safe beside (.inr asks)
      exact ⟨o', .named inside', same.mono opens⟩
  | ahead _ ih =>
      obtain ⟨o', seen', same⟩ := ih leaves safe beside asked
      exact ⟨_, .ahead seen', same.ahead beside⟩
  | notAhead _ ih =>
      obtain ⟨o', seen', same⟩ := ih leaves safe beside asked
      exact ⟨_, .notAhead seen', same.notAhead beside⟩
  | sameLine => exact ⟨_, .sameLine, .sameLine beside (asked.resolve_right nofun)⟩
  | lineEnd => exact ⟨_, .lineEnd, .lineEnd _ beside (asked.resolve_right nofun)⟩
  | missing => exact ⟨_, .missing, .missing _ beside⟩

end

theorem twins_left {a : Pair} (beside : Beside a) : ∃ b : Pair, b.left.rest = [] ∧ b.right.rest = [] ∧
    Twins a (if a.left.rest.isEmpty then [] else
        [Tree.leaf .unreadable a.left.position a.left.rest])
      (if a.right.rest.isEmpty then [] else
        [Tree.leaf .unreadable a.right.position a.right.rest]) b := by
  have same := beside.nil_iff
  cases ended : a.left.rest.isEmpty with
  | true =>
      have none := List.isEmpty_iff.1 ended
      rw [if_pos rfl, if_pos (List.isEmpty_iff.2 (same.1 none))]
      exact ⟨a, none, same.1 none, .done (.refl a)⟩
  | false =>
      have some : a.right.rest.isEmpty = false :=
        Bool.eq_false_iff.2 fun none => Bool.eq_false_iff.1 ended
          (List.isEmpty_iff.2 (same.2 (List.isEmpty_iff.1 none)))
      obtain ⟨q, -, reflow⟩ := beside
      rw [some]
      have whole : Moves (a.left.rest.take a.left.rest.length)
          (a.right.rest.take a.right.rest.length) a
          (a.advance q a.left.rest.length a.right.rest.length) := by
        refine ⟨a.left.leads_advance _, a.right.leads_advance _, ?_⟩
        rw [List.take_length, List.take_length]
        exact reflow
      have leaf := Twins.leaf .unreadable whole
      rw [List.take_length, List.take_length] at leaf
      exact ⟨_, List.drop_length, List.drop_length, leaf⟩

/-- Source texts that differ only in their gaps are read alike. -/
theorem twins_read (dialect : Dialect) {p q : Layout} {s t : Text} (reflow : Reflow p s t q)
    (solid : q.folded = false) :
    ∃ b, Twins ⟨p, ⟨Position.start, s⟩, ⟨Position.start, t⟩⟩ [read dialect s] [read dialect t] b := by
  let a : Pair := ⟨p, ⟨Position.start, s⟩, ⟨Position.start, t⟩⟩
  let reading (source : Text) : Cursor × List Tree :=
    (Grammar.program.run (grammar dialect) (nestingBound source.length)
      ⟨Position.start, source⟩).getD (⟨Position.start, source⟩, [])
  have beside : Beside a := ⟨q, solid, reflow⟩
  obtain ⟨m, stop, stop', trees, behind⟩ : ∃ m : Pair, m.left = (reading s).1 ∧
      m.right = (reading t).1 ∧ Twins a (reading s).2 (reading t).2 m ∧ Beside m := by
    obtain ⟨safe, asks⟩ := Rule.safe_program
    obtain ⟨o', program', same⟩ :=
      (reads_program dialect s).alongside leaf_program safe beside (.inr asks)
    dsimp only [reading]
    rw [← program'.unique (reads_program dialect t)]
    generalize Grammar.program.run (grammar dialect) (nestingBound s.length)
      ⟨Position.start, s⟩ = o at same ⊢
    cases same with
    | none => exact ⟨a, rfl, rfl, .done (.refl a), beside⟩
    | @some b _ _ twins behind => exact ⟨b, rfl, rfl, twins, behind⟩
  obtain ⟨k, skipped, skipped', comments, -, further⟩ := exists_skip behind
  obtain ⟨b, none, none', rest⟩ := twins_left further
  have children := (trees.append comments).append rest
  rw [stop] at children skipped
  rw [stop'] at children skipped'
  rw [skipped, skipped'] at children
  obtain ⟨u, v, moves⟩ := children.together
  have whole : s = u := by
    have rest := moves.left.rest
    rwa [none, List.append_nil] at rest
  have whole' : t = v := by
    have rest := moves.right.rest
    rwa [none', List.append_nil] at rest
  exact ⟨b, .tree (.refl a) rfl rfl ⟨rfl, rfl, rfl⟩ (whole ▸ whole' ▸ moves) children
    (.done (.refl b))⟩

/-- The places of a pair, whatever the layout there is. -/
def Pair.places (a : Pair) : Places := ⟨a.left, a.right⟩

theorem Pair.Moves.passes {a b : Pair} {u v : Text} (moves : Moves u v a b) :
    Places.Passes u v a.places b.places := ⟨moves.left, moves.right, moves.reflow.respaced⟩

theorem Pair.Together.onward {a b : Pair} : Together a b → Places.Onward a.places b.places
  | ⟨_, _, moves⟩ => ⟨_, _, moves.passes⟩

theorem Twins.copies {a b : Pair} {ts us : List Tree} (twins : Twins a ts us b) :
    Copies Text.Respaced a.places ts us b.places := by
  induction twins with
  | done skipped => exact .done skipped.onward
  | tree skipped start start' like text _ _ inside after =>
      exact .tree skipped.onward start start' like text.reflow.respaced text.passes inside after

/-- What is read of a text laid out anew is a copy of what is read of the text. -/
theorem copy_read (dialect : Dialect) {p q : Layout} {s t : Text} (reflow : Reflow p s t q)
    (solid : q.folded = false) : Copy Text.Respaced (read dialect s) (read dialect t) := by
  obtain ⟨b, twins⟩ := twins_read dialect reflow solid
  cases twins.copies.forall₂ with
  | cons copy _ => exact copy

end ApiReference.Syntax
