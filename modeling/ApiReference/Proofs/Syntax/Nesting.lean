import ApiReference.Proofs.Syntax.Placement

/-!
# Depth of nesting

What a rule reads, said without fuel, and the fuel that running the rule needs for that: rules nest
only so deep between one token and the next. Main statements: `reads_run`, `Reads.unique`.
-/

namespace ApiReference.Syntax

/-- What a rule reads at a cursor, or that it does not fit there. -/
inductive Reads {N : Type} (grammar : N → Rule N) :
    Rule N → Cursor → Option (Cursor × List Tree) → Prop where
  | empty {c : Cursor} : Reads grammar .empty c (some (c, []))
  | noToken {kind : Kind} {scan : Text → Nat} {c : Cursor} (absent : scan c.skip.1.rest = 0) :
      Reads grammar (.leaf kind scan) c none
  | token {kind : Kind} {scan : Text → Nat} {c : Cursor} (found : scan c.skip.1.rest ≠ 0) :
      Reads grammar (.leaf kind scan) c
        (some (c.skip.1.advance (scan c.skip.1.rest), c.skip.2 ++
          [Tree.leaf kind c.skip.1.position (c.skip.1.rest.take (scan c.skip.1.rest))]))
  | node {kind : Kind} {body : Rule N} {c : Cursor} {o : Option (Cursor × List Tree)}
      (inside : Reads grammar body c o) :
      Reads grammar (.node kind body) c (o.map fun r => (r.1, bundle kind c r.1 r.2))
  | role {r : Role} {body : Rule N} {c : Cursor} {o : Option (Cursor × List Tree)}
      (inside : Reads grammar body c o) :
      Reads grammar (.role r body) c
        (o.map fun s => (s.1, s.2.map fun t => if t.isComment then t else t.withRole r))
  | seqNone {first second : Rule N} {c : Cursor} (begun : Reads grammar first c none) :
      Reads grammar (.seq first second) c none
  | seq {first second : Rule N} {c middle : Cursor} {ts : List Tree}
      {o : Option (Cursor × List Tree)} (begun : Reads grammar first c (some (middle, ts)))
      (ended : Reads grammar second middle o) :
      Reads grammar (.seq first second) c (o.map fun r => (r.1, ts ++ r.2))
  | preferred {preferred other : Rule N} {c : Cursor} {reading : Cursor × List Tree}
      (fits : Reads grammar preferred c (some reading)) :
      Reads grammar (.alt preferred other) c (some reading)
  | other {preferred other : Rule N} {c : Cursor} {o : Option (Cursor × List Tree)}
      (unfit : Reads grammar preferred c none) (instead : Reads grammar other c o) :
      Reads grammar (.alt preferred other) c o
  | manyNone {body : Rule N} {c : Cursor} (none : Reads grammar body c none) :
      Reads grammar (.many body) c (some (c, []))
  | manyIdle {body : Rule N} {c middle : Cursor} {ts : List Tree}
      (idle : Reads grammar body c (some (middle, ts)))
      (stays : ¬ c.position.offset < middle.position.offset) :
      Reads grammar (.many body) c (some (c, []))
  | many {body : Rule N} {c middle : Cursor} {ts : List Tree} {o : Option (Cursor × List Tree)}
      (one : Reads grammar body c (some (middle, ts)))
      (moves : c.position.offset < middle.position.offset)
      (more : Reads grammar (.many body) middle o) :
      Reads grammar (.many body) c (o.map fun r => (r.1, ts ++ r.2))
  | named {name : N} {c : Cursor} {o : Option (Cursor × List Tree)}
      (inside : Reads grammar (grammar name) c o) : Reads grammar (.named name) c o
  | ahead {body : Rule N} {c : Cursor} {o : Option (Cursor × List Tree)}
      (seen : Reads grammar body c o) :
      Reads grammar (.ahead body) c (if o.isSome then some (c, []) else none)
  | notAhead {body : Rule N} {c : Cursor} {o : Option (Cursor × List Tree)}
      (seen : Reads grammar body c o) :
      Reads grammar (.notAhead body) c (if o.isSome then none else some (c, []))
  | sameLine {c : Cursor} : Reads grammar .sameLine c
      (if c.skip.1.position.row == c.position.row then some (c, []) else none)
  | lineEnd {beforeBody : Bool} {c : Cursor} :
      Reads grammar (.lineEnd beforeBody) c (readLineEnd beforeBody c.rest c)
  | missing {kind : Kind} {c : Cursor} :
      Reads grammar (.missing kind) c (some (c, [.node ⟨kind, none, c.position, [], true⟩ []]))

/-- A rule reads one thing only. -/
theorem Reads.unique {N : Type} {grammar : N → Rule N} {rule : Rule N} {c : Cursor}
    {o p : Option (Cursor × List Tree)} (one : Reads grammar rule c o)
    (two : Reads grammar rule c p) : o = p := by
  induction one generalizing p with
  | empty | sameLine | lineEnd | missing =>
      cases two
      rfl
  | noToken absent =>
      cases two with
      | noToken => rfl
      | token found => exact absurd absent found
  | token found =>
      cases two with
      | noToken absent => exact absurd absent found
      | token => rfl
  | node _ ih =>
      cases two with
      | node inside => rw [ih inside]
  | role _ ih =>
      cases two with
      | role inside => rw [ih inside]
  | named _ ih =>
      cases two with
      | named inside => exact ih inside
  | ahead _ ih =>
      cases two with
      | ahead seen => rw [ih seen]
  | notAhead _ ih =>
      cases two with
      | notAhead seen => rw [ih seen]
  | seqNone _ ih =>
      cases two with
      | seqNone => rfl
      | seq begun => exact nomatch ih begun
  | seq _ _ first second =>
      cases two with
      | seqNone begun => exact nomatch first begun
      | seq begun ended =>
          cases first begun
          rw [second ended]
  | preferred _ ih =>
      cases two with
      | preferred fits => exact ih fits
      | other unfit => exact nomatch ih unfit
  | other _ _ first second =>
      cases two with
      | preferred fits => exact nomatch first fits
      | other _ instead => exact second instead
  | manyNone _ ih =>
      cases two with
      | manyNone | manyIdle => rfl
      | many one => exact nomatch ih one
  | manyIdle _ stays ih =>
      cases two with
      | manyNone | manyIdle => rfl
      | many one moves =>
          cases ih one
          exact absurd moves stays
  | many _ moves _ first rest =>
      cases two with
      | manyNone none => exact nomatch first none
      | manyIdle idle stays =>
          cases first idle
          exact absurd moves stays
      | many one _ more =>
          cases first one
          rw [rest more]

section
variable {N : Type} {grammar : N → Rule N} {c d e : Cursor} {ts us : List Tree}

theorem Reads.of_notAhead {body : Rule N} {r : Cursor × List Tree}
    (reads : Reads grammar (.notAhead body) c (some r)) :
    Reads grammar body c none ∧ r = (c, []) := by
  generalize read : some r = o at reads
  cases reads with
  | @notAhead _ _ o seen =>
      cases o with
      | none => exact ⟨seen, Option.some.inj read⟩
      | some => cases read

theorem Reads.of_seq {first second : Rule N}
    (reads : Reads grammar (.seq first second) c (some (e, ts))) :
    ∃ d us vs, Reads grammar first c (some (d, us)) ∧ Reads grammar second d (some (e, vs)) := by
  generalize read : some (e, ts) = o at reads
  cases reads with
  | seqNone => cases read
  | @seq _ _ _ middle us o begun ended =>
      cases o with
      | none => cases read
      | some r =>
          cases read
          exact ⟨middle, us, r.2, begun, ended⟩

theorem Reads.of_sameLine {r : Cursor × List Tree}
    (reads : Reads grammar .sameLine c (some r)) : r = (c, []) := by
  generalize read : some r = o at reads
  cases reads with
  | sameLine =>
      split at read
      · exact Option.some.inj read
      · cases read

end

namespace Rule
variable {N : Type}

/-- Whether a rule may succeed where it reads nothing; a named rule may not. -/
def nullable : Rule N → Bool
  | leaf _ _ | named _ => false
  | node _ body | role _ body => body.nullable
  | seq first second => first.nullable && second.nullable
  | alt preferred other => preferred.nullable || other.nullable
  | _ => true

/-- How much less fuel every character read leaves necessary. -/
def stride : Nat := 64

/-- The fuel that a rule needs besides that for the characters to come, if named rules need no more
than their rank. What stands after the first token has the fuel for that token as well. -/
def depth (rank : N → Nat) : Rule N → Nat
  | node _ body | role _ body | many body | ahead body | notAhead body => body.depth rank + 1
  | seq first second =>
    max (first.depth rank + 1)
      (if first.nullable then second.depth rank + 1 else second.depth rank + 1 - stride)
  | alt preferred other => max (preferred.depth rank) (other.depth rank) + 1
  | named n => rank n + 1
  | _ => 1

/-- Something is true of every token of a rule: of its kind and of how it is scanned. -/
def EveryToken (P : Kind → (Text → Nat) → Prop) : Rule N → Prop
  | leaf kind scan => P kind scan
  | node _ body | role _ body | many body | ahead body | notAhead body => body.EveryToken P
  | seq first second => first.EveryToken P ∧ second.EveryToken P
  | alt preferred other => preferred.EveryToken P ∧ other.EveryToken P
  | _ => True

end Rule

theorem Rule.EveryToken.mono {N : Type} {P Q : Kind → (Text → Nat) → Prop}
    (weaker : ∀ kind scan, P kind scan → Q kind scan) {rule : Rule N} (every : rule.EveryToken P) :
    rule.EveryToken Q := by
  induction rule with
  | leaf kind scan => exact weaker kind scan every
  | node kind body ih | role r body ih | many body ih | ahead body ih | notAhead body ih =>
      exact ih every
  | seq first second ihFirst ihSecond | alt first second ihFirst ihSecond =>
      exact ⟨ihFirst every.1, ihSecond every.2⟩
  | _ => trivial

/-- The rules of a grammar read something where they succeed and are no deeper than their rank, and
no scan finds a token at the end of the text. -/
structure Ranked {N : Type} (grammar : N → Rule N) (rank : N → Nat) : Prop where
  moves (n : N) : (grammar n).nullable = false
  depth_le (n : N) : (grammar n).depth rank ≤ rank n
  tokens (n : N) : (grammar n).EveryToken fun _ scan => scan [] = 0

section
variable {N : Type} {grammar : N → Rule N} {rank : N → Nat} {rule : Rule N} {c d : Cursor}
variable {ts : List Tree} {fuel : Nat}

open Cursor (Reaches)

theorem Cursor.Reaches.length_le (reaches : Reaches c d) : d.rest.length ≤ c.rest.length := by
  obtain ⟨t, rest, -⟩ := reaches
  rw [rest, List.length_append]
  exact Nat.le_add_left _ _

theorem Cursor.Reaches.length_lt (reaches : Reaches c d)
    (moves : c.position.offset < d.position.offset) : d.rest.length < c.rest.length := by
  obtain ⟨t, rest, position⟩ := reaches
  rw [rest, List.length_append]
  refine Nat.lt_add_of_pos_left (List.length_pos_iff.2 ?_)
  rintro rfl
  rw [position] at moves
  exact absurd moves (Nat.lt_irrefl _)

theorem length_lt_of_advance {k : Nat} (found : k ≠ 0) (more : c.rest ≠ []) :
    (c.advance k).rest.length < c.rest.length := by
  rw [Cursor.advance, List.length_drop]
  exact Nat.sub_lt (List.length_pos_iff.2 more) (Nat.pos_of_ne_zero found)

theorem Reads.reaches {o : Option (Cursor × List Tree)} (reads : Reads grammar rule c o) :
    ∀ r ∈ o, Reaches c r.1 := by
  induction reads with
  | noToken | seqNone => exact nofun
  | empty | manyNone | manyIdle | missing => exact fun r same => Option.some.inj same ▸ .refl _
  | @token kind scan c =>
      refine fun r same => Option.some.inj same ▸ ?_
      exact (lays_skip c).reaches.trans ⟨_, c.skip.1.leads_advance _⟩
  | node _ ih | role _ ih =>
      intro r found
      obtain ⟨s, inside, same⟩ := Option.map_eq_some_iff.1 found
      exact same ▸ ih s inside
  | seq _ _ first second | many _ _ _ first second =>
      intro r found
      obtain ⟨s, ended, same⟩ := Option.map_eq_some_iff.1 found
      exact same ▸ (first _ rfl).trans (second s ended)
  | preferred _ ih | other _ _ _ ih | named _ ih => exact ih
  | ahead | notAhead | sameLine =>
      intro r found
      split at found <;> cases found
      exact .refl _
  | lineEnd => exact fun r found => (lays_readLineEnd found).reaches

/-- A rule that is not nullable reads something where it succeeds. -/
theorem Reads.length_lt (ranked : Ranked grammar rank) {o : Option (Cursor × List Tree)}
    (reads : Reads grammar rule c o) (tokens : rule.EveryToken fun _ scan => scan [] = 0)
    (moves : rule.nullable = false) : ∀ r ∈ o, r.1.rest.length < c.rest.length := by
  induction reads with
  | noToken | seqNone => exact nofun
  | @token kind scan c found =>
      refine fun r same => Option.some.inj same ▸ ?_
      refine Nat.lt_of_lt_of_le (length_lt_of_advance found fun none => found ?_)
        (lays_skip c).reaches.length_le
      rw [none]
      exact tokens
  | node _ ih | role _ ih =>
      intro r found
      obtain ⟨s, inside, same⟩ := Option.map_eq_some_iff.1 found
      exact same ▸ ih tokens moves s inside
  | seq begun ended first second =>
      intro r found
      obtain ⟨s, last, same⟩ := Option.map_eq_some_iff.1 found
      rw [← same]
      rcases Bool.and_eq_false_iff.1 moves with firstMoves | secondMoves
      · exact Nat.lt_of_le_of_lt (ended.reaches s last).length_le (first tokens.1 firstMoves _ rfl)
      · exact Nat.lt_of_lt_of_le (second tokens.2 secondMoves s last) (begun.reaches _ rfl).length_le
  | preferred _ ih => exact ih tokens.1 (Bool.or_eq_false_iff.1 moves).1
  | other _ _ _ ih => exact ih tokens.2 (Bool.or_eq_false_iff.1 moves).2
  | @named name c o _ ih => exact ih (ranked.tokens name) (ranked.moves name)
  | _ => cases moves

theorem Rule.depth_pos (rank : N → Nat) (rule : Rule N) : 0 < rule.depth rank := by
  cases rule
  case seq first second => exact Nat.lt_of_lt_of_le (Nat.succ_pos _) (Nat.le_max_left _ _)
  all_goals exact Nat.succ_pos _

/-- Behind the first of two rules there is the fuel that the second needs. -/
theorem Reads.enough_second (ranked : Ranked grammar rank) {first second : Rule N}
    (begun : Reads grammar first c (some (d, ts)))
    (tokens : first.EveryToken fun _ scan => scan [] = 0)
    (enough : Rule.stride * c.rest.length + (Rule.seq first second).depth rank ≤ fuel + 1) :
    Rule.stride * d.rest.length + second.depth rank ≤ fuel := by
  unfold Rule.depth at enough
  cases nullable : first.nullable with
  | true =>
      have shorter : d.rest.length ≤ c.rest.length := (begun.reaches _ rfl).length_le
      have := Nat.mul_le_mul_left Rule.stride shorter
      rw [nullable, if_pos rfl] at enough
      omega
  | false =>
      have shorter : d.rest.length < c.rest.length := begun.length_lt ranked tokens nullable _ rfl
      have := Nat.mul_le_mul_left Rule.stride shorter
      rw [nullable, if_neg Bool.false_ne_true] at enough
      unfold Rule.stride at *
      omega

/-- Behind one run of a repeated rule there is the fuel that the next runs need. -/
theorem Reads.enough_again {body : Rule N} (one : Reads grammar body c (some (d, ts)))
    (moves : c.position.offset < d.position.offset)
    (enough : Rule.stride * c.rest.length + (Rule.many body).depth rank ≤ fuel + 1) :
    Rule.stride * d.rest.length + (Rule.many body).depth rank ≤ fuel := by
  have shorter : d.rest.length < c.rest.length := (one.reaches _ rfl).length_lt moves
  have := Nat.mul_le_mul_left Rule.stride shorter
  unfold Rule.depth at *
  unfold Rule.stride at *
  omega

/-- With the fuel that it needs a rule reads what it reads. -/
theorem reads_run (ranked : Ranked grammar rank)
    (tokens : rule.EveryToken fun _ scan => scan [] = 0)
    (enough : Rule.stride * c.rest.length + rule.depth rank ≤ fuel) :
    Reads grammar rule c (rule.run grammar fuel c) := by
  induction fuel generalizing rule c with
  | zero =>
      exact absurd (rule.depth_pos rank) (Nat.not_lt.2 (Nat.le_trans (Nat.le_add_left _ _) enough))
  | succ n ih =>
      unfold Rule.run
      cases rule
      all_goals dsimp only
      all_goals unfold Rule.depth at enough
      case empty => exact .empty
      case leaf kind scan =>
          split
          · next absent => exact .noToken absent
          · next found => exact .token found
      case node kind body => exact .node (ih tokens (by omega))
      case role r body => exact .role (ih tokens (by omega))
      case seq first second =>
          have left : Rule.stride * c.rest.length + first.depth rank ≤ n := by omega
          have begun := ih tokens.1 left
          cases read : first.run grammar n c with
          | none => exact .seqNone (read ▸ begun)
          | some reading =>
              obtain ⟨middle, trees⟩ := reading
              rw [read] at begun
              exact .seq begun (ih tokens.2 (begun.enough_second ranked tokens.1 enough))
      case alt preferred other =>
          have first := ih tokens.1 (c := c) (by omega)
          cases read : preferred.run grammar n c with
          | none => exact .other (read ▸ first) (ih tokens.2 (by omega))
          | some reading => exact .preferred (read ▸ first)
      case many body =>
          have one := @ih body c tokens (by omega)
          cases read : body.run grammar n c with
          | none => exact .manyNone (read ▸ one)
          | some reading =>
              obtain ⟨middle, trees⟩ := reading
              dsimp only
              split
              · next moves =>
                  rw [read] at one
                  exact .many one moves (ih tokens (one.enough_again moves enough))
              · next stays => exact .manyIdle (read ▸ one) stays
      case named name =>
          exact .named (ih (ranked.tokens name) (by have := ranked.depth_le name; omega))
      case ahead body => exact .ahead (ih tokens (by omega))
      case notAhead body => exact .notAhead (ih tokens (by omega))
      case sameLine => exact .sameLine
      case lineEnd beforeBody => exact .lineEnd
      case missing kind => exact .missing

end

end ApiReference.Syntax
