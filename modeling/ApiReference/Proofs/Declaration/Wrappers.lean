import ApiReference.Declaration.Build
import ApiReference.Proofs.Syntax.Constructs

/-!
# What wrappers wrap

An export statement or ambient declaration of a text has one declaration at most among its children.
How many declarations a rule may read side by side is counted along its parts, once for each
construct of the grammar. Main statement: `single_read`.
-/

namespace ApiReference.Declaration
open ApiReference.Syntax (Tree Focus Kind Rule Cursor Construct Dialect Position Reads grammar)

/-- Statements that declare one thing, under a name of their own. -/
def declaresOne : Kind → Bool
  | .functionSignature | .functionDeclaration | .interfaceDeclaration | .typeAliasDeclaration
  | .classDeclaration | .abstractClassDeclaration | .enumDeclaration => true
  | _ => false

def declaresVariables : Kind → Bool
  | .lexicalDeclaration | .variableDeclaration => true
  | _ => false

/-- Statements that declare something themselves. -/
def isStatement (k : Kind) : Bool := declaresOne k || declaresVariables k

/-- Whether a tree of a kind declares something or wraps a declaration. -/
def declares (k : Kind) : Bool := isWrapper k || isStatement k

theorem declares_of_isWrapper {k : Kind} (wrapper : isWrapper k = true) : declares k = true := by
  rw [declares, wrapper, Bool.true_or]

theorem declares_of_isStatement {k : Kind} (statement : isStatement k = true) :
    declares k = true := by
  rw [declares, statement, Bool.or_true]

theorem isWrapper_of_isStatement {k : Kind} (statement : isStatement k = true) :
    isWrapper k = false := by
  cases k <;> first | rfl | cases statement

theorem declaresVariables_of_declaresOne {k : Kind} (one : declaresOne k = true) :
    declaresVariables k = false := by
  cases k <;> first | rfl | cases one

def declarationCount (ts : List Tree) : Nat := ts.countP fun t => declares t.kind

/-- Every wrapper in a tree wraps one declaration at most. -/
inductive Single : Tree → Prop where
  | node {l : Syntax.Label} {ts : List Tree}
    (own : isWrapper l.kind = true → declarationCount ts ≤ 1)
    (inside : ∀ t ∈ ts, Single t) : Single (.node l ts)

namespace Single
variable {t : Tree}

theorem declarationCount_le (single : Single t) (wrapper : isWrapper t.kind = true) :
    declarationCount t.children ≤ 1 := by
  cases single with
  | node own inside => exact own wrapper

theorem of_mem_children (single : Single t) {s : Tree} (member : s ∈ t.children) : Single s := by
  cases single with
  | node own inside => exact inside s member

theorem withRole (single : Single t) (r : Syntax.Role) : Single (t.withRole r) := by
  cases single with
  | node own inside => exact .node own inside

theorem of_no_children (l : Syntax.Label) : Single (.node l []) :=
  .node (fun _ => Nat.zero_le 1) (List.forall_mem_nil _)

theorem of_mem_visit (f : Focus) (single : Single f.tree) :
    ∀ g ∈ Focus.visit f.above f.tree, Single g.tree := by
  induction f using Focus.by_children with
  | step f ih =>
      intro g member
      rcases Focus.mem_visit.mp member with rfl | ⟨c, isChild, below⟩
      · exact single
      · obtain ⟨i, t, listed, rfl⟩ := Focus.mem_children.mp isChild
        exact ih _ isChild (single.of_mem_children (List.mem_of_getElem? listed)) g below

end Single

/-- The most declarations that a construct reads side by side. -/
def constructMost : Construct → Nat
  | .statement | .declaration => 1
  | _ => 0

def kindMost (k : Kind) : Nat := if declares k then 1 else 0

/-- The most declarations that a rule reads side by side, where 2 stands for any number. -/
def ruleMost : Syntax.Grammar.R → Nat
  | .leaf kind _ | .node kind _ | .missing kind => kindMost kind
  | .role _ body => ruleMost body
  | .seq first second => ruleMost first + ruleMost second
  | .alt preferred other => max (ruleMost preferred) (ruleMost other)
  | .many body => if ruleMost body = 0 then 0 else 2
  | .named x => constructMost x
  | _ => 0

/-- Whether a rule lets wrappers wrap one declaration at most. -/
def wrapsOne : Syntax.Grammar.R → Bool
  | .node kind body => (!isWrapper kind || ruleMost body ≤ 1) && wrapsOne body
  | .role _ body | .many body => wrapsOne body
  | .seq first second => wrapsOne first && wrapsOne second
  | .alt preferred other => wrapsOne preferred && wrapsOne other
  | _ => true

theorem wrapsOne_program : wrapsOne Syntax.Grammar.program = true := by decide

/-- What is asked of the rule of a construct. -/
structure Wrapping (x : Construct) (rule : Syntax.Grammar.R) : Prop where
  most : ruleMost rule ≤ constructMost x
  wrapsOne : wrapsOne rule = true

theorem wrapping_grammar (d : Dialect) (x : Construct) : Wrapping x (grammar d x) := by
  cases d <;> cases x <;> try cases ‹Bool›
  all_goals exact ⟨by decide, by decide⟩

/-- Trees read side by side: no more declarations than a bound, if the bound is one, and wrappers
that wrap one declaration at most. -/
structure Counted (n : Nat) (ts : List Tree) : Prop where
  few : n ≤ 1 → declarationCount ts ≤ n
  single : ∀ t ∈ ts, Single t

namespace Counted
variable {m n : Nat} {ts us : List Tree}

theorem nil : Counted n [] := ⟨fun _ => Nat.zero_le n, List.forall_mem_nil _⟩

theorem mono (counted : Counted m ts) (le : m ≤ n) : Counted n ts :=
  ⟨fun small => (counted.few (le.trans small)).trans le, counted.single⟩

theorem append (first : Counted m ts) (second : Counted n us) : Counted (m + n) (ts ++ us) := by
  refine ⟨fun small => ?_, fun t member => ?_⟩
  · rw [declarationCount, List.countP_append]
    exact Nat.add_le_add (first.few (by omega)) (second.few (by omega))
  · rcases List.mem_append.1 member with member | member
    · exact first.single t member
    · exact second.single t member

theorem singleton {t : Tree} (single : Single t) : Counted (kindMost t.kind) [t] := by
  refine ⟨fun _ => Nat.le_of_eq ?_, List.forall_mem_singleton.2 single⟩
  rw [declarationCount, List.countP_singleton, kindMost]

theorem bare (l : Syntax.Label) : Counted (kindMost l.kind) [.node l []] :=
  singleton (.of_no_children l)

theorem comment (p : Position) (text : Text) (counted : Counted n ts) :
    Counted n (Tree.leaf .comment p text :: ts) := by
  have both := (bare ⟨.comment, none, p, text, false⟩).append counted
  rwa [show kindMost .comment = 0 from rfl, Nat.zero_add] at both

/-- Repetitions of what reads no declaration read none. -/
theorem repeated (one : Counted n ts) (more : Counted (if n = 0 then 0 else 2) us) :
    Counted (if n = 0 then 0 else 2) (ts ++ us) := by
  by_cases none : n = 0
  · rw [if_pos none] at more ⊢
    subst none
    exact one.append more
  · rw [if_neg none]
    exact ⟨fun small => absurd small (by decide), (one.append more).single⟩

theorem map_role (r : Syntax.Role) (counted : Counted n ts) :
    Counted n (ts.map fun t => if t.isComment then t else t.withRole r) := by
  refine ⟨fun small => Nat.le_trans (Nat.le_of_eq ?_) (counted.few small), fun t member => ?_⟩
  · rw [declarationCount, List.countP_map]
    refine List.countP_congr fun t _ => ?_
    have same : (if t.isComment then t else t.withRole r).kind = t.kind := by
      cases t
      split <;> rfl
    rw [Function.comp_apply, same]
  · obtain ⟨s, inside, rfl⟩ := List.mem_map.1 member
    split
    · exact counted.single s inside
    · exact (counted.single s inside).withRole r

/-- A tree over what has been read counts as one of its kind, beside the comments before it. -/
theorem bundle {kind : Kind} (counted : Counted n ts) (one : isWrapper kind = true → n ≤ 1)
    (c d : Cursor) : Counted (kindMost kind) (Syntax.bundle kind c d ts) := by
  have whole := List.takeWhile_append_dropWhile (p := Tree.isComment) (l := ts)
  have before : Counted 0 (ts.takeWhile Tree.isComment) := by
    refine ⟨fun _ => Nat.le_of_eq (List.countP_eq_zero.2 fun t member => ?_), fun t member => ?_⟩
    · have comment : t.isComment = true := List.mem_takeWhile_imp member
      rw [eq_of_beq (a := t.kind) comment]
      decide
    · exact counted.single t ((List.takeWhile_sublist _).subset member)
  unfold Syntax.bundle
  split
  · exact before.mono (Nat.zero_le _)
  · next first more shape =>
      have part : (first :: more).Sublist ts := shape ▸ List.dropWhile_sublist _
      have outer : Single (.node ⟨kind, none, first.start,
          c.between first.start d.position, false⟩ (first :: more)) := by
        refine .node (fun wrapper => ?_) fun t member => counted.single t (part.subset member)
        exact part.countP_le.trans ((counted.few (one wrapper)).trans (one wrapper))
      have both := before.append (singleton outer)
      rwa [Nat.zero_add] at both

end Counted

theorem counted_skipWithin (bound : Text) (c : Cursor) : Counted 0 (c.skipWithin bound).2 := by
  induction bound generalizing c with
  | nil => exact .nil
  | cons b bound ih =>
      unfold Cursor.skipWithin
      dsimp only
      split
      · exact .nil
      · exact (ih _).comment _ _

theorem counted_skip (c : Cursor) : Counted 0 c.skip.2 := counted_skipWithin c.rest c

theorem counted_readLineEnd {beforeBody : Bool} {bound : Text} {c d : Cursor} {ts : List Tree}
    (read : Syntax.readLineEnd beforeBody bound c = some (d, ts)) : Counted 0 ts :=
  Syntax.readLineEnd_induct (motive := fun _ ts => Counted 0 ts) .nil
    (fun _ _ _ rest => rest.comment _ _) read

/-- What a rule reads has no more declarations side by side than is counted along its parts. -/
theorem counted_of_reads {dialect : Dialect} {rule : Syntax.Grammar.R} {c d : Cursor}
    {o : Option (Cursor × List Tree)} {ts : List Tree} (reads : Reads (grammar dialect) rule c o)
    (allowed : wrapsOne rule = true) (found : o = some (d, ts)) : Counted (ruleMost rule) ts := by
  induction reads generalizing d ts with
  | empty =>
      cases found
      exact .nil
  | noToken => cases found
  | @token kind scan c present =>
      cases found
      have both := (counted_skip c).append (.bare ⟨kind, none, c.skip.1.position,
        c.skip.1.rest.take (scan c.skip.1.rest), false⟩)
      rwa [Nat.zero_add] at both
  | @node kind body c o inside ih =>
      obtain ⟨⟨e, trees⟩, rfl, same⟩ := Option.map_eq_some_iff.1 found
      cases same
      rw [wrapsOne, Bool.and_eq_true] at allowed
      refine (ih allowed.2 rfl).bundle (fun wrapper => ?_) c e
      have few := allowed.1
      rw [wrapper] at few
      exact of_decide_eq_true few
  | @role r body c o inside ih =>
      obtain ⟨⟨e, trees⟩, rfl, same⟩ := Option.map_eq_some_iff.1 found
      cases same
      exact (ih allowed rfl).map_role r
  | seqNone => cases found
  | seq begun ended ih ih' =>
      obtain ⟨⟨e, more⟩, rfl, same⟩ := Option.map_eq_some_iff.1 found
      cases same
      rw [wrapsOne, Bool.and_eq_true] at allowed
      exact (ih allowed.1 rfl).append (ih' allowed.2 rfl)
  | preferred fits ih =>
      rw [wrapsOne, Bool.and_eq_true] at allowed
      exact (ih allowed.1 found).mono (Nat.le_max_left _ _)
  | other unfit instead _ ih =>
      rw [wrapsOne, Bool.and_eq_true] at allowed
      exact (ih allowed.2 found).mono (Nat.le_max_right _ _)
  | manyNone =>
      cases found
      exact .nil
  | manyIdle =>
      cases found
      exact .nil
  | many one moves more ih ih' =>
      obtain ⟨⟨e, rest⟩, rfl, same⟩ := Option.map_eq_some_iff.1 found
      cases same
      exact (ih allowed rfl).repeated (ih' allowed rfl)
  | @named x c o inside ih =>
      have sound := wrapping_grammar dialect x
      exact (ih sound.wrapsOne found).mono sound.most
  | ahead =>
      split at found
      · cases found
        exact .nil
      · cases found
  | notAhead =>
      split at found
      · cases found
      · cases found
        exact .nil
  | sameLine =>
      split at found
      · cases found
        exact .nil
      · cases found
  | lineEnd => exact counted_readLineEnd found
  | @missing kind c =>
      cases found
      exact .bare ⟨kind, none, c.position, [], true⟩

/-- A wrapper in a text wraps one declaration at most. -/
theorem single_read (dialect : Dialect) (source : Text) : Single (Syntax.read dialect source) := by
  let start : Cursor := ⟨Position.start, source⟩
  let reading := (Syntax.Grammar.program.run (grammar dialect)
    (Syntax.nestingBound source.length) start).getD (start, [])
  have program : ∀ t ∈ reading.2, Single t := by
    have reads := Syntax.reads_program dialect source
    dsimp only [reading, start]
    cases found : Syntax.Grammar.program.run (grammar dialect)
        (Syntax.nestingBound source.length) ⟨Position.start, source⟩ with
    | none => exact List.forall_mem_nil _
    | some outcome => exact (counted_of_reads reads wrapsOne_program found).single
  refine .node nofun fun t member => ?_
  rcases List.mem_append.1 member with member | left
  · rcases List.mem_append.1 member with member | comment
    · exact program t member
    · exact (counted_skip _).single t comment
  · let stop := reading.1.skip.1
    change t ∈ if stop.rest.isEmpty then [] else
      [Tree.leaf .unreadable stop.position stop.rest] at left
    split at left
    · cases left
    · rw [List.mem_singleton.1 left]
      exact .of_no_children _

end ApiReference.Declaration
