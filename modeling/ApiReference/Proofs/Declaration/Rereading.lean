import ApiReference.Proofs.Declaration.CommentOwners
import ApiReference.Proofs.Declaration.Signatures

/-!
# Signatures read again

A signature is the text of a declaration on one line. Of what reads declarations nothing is assumed
but that a type is read by itself as it is read in a larger text, that where no line end counts the
width of gaps does not count either, and that a final semicolon may be left out. It follows that the
signature of a type declares what its text declares, unless a line end counted there. Main statement:
`rereads_of_settled`.
-/

namespace ApiReference.Declaration
open ApiReference.Syntax (Tree Focus Kind Frame Copy Kin)

/-- Kinds of the trees that declare a type. -/
def declaresType : Kind → Bool
  | .interfaceDeclaration | .typeAliasDeclaration | .classDeclaration | .abstractClassDeclaration
  | .enumDeclaration => true
  | _ => false

/-- Kinds of the trees that the end of a line may end. -/
def mayEndWithLine : Kind → Bool
  | .propertySignature | .publicFieldDefinition | .methodSignature | .abstractMethodSignature
  | .callSignature | .constructSignature | .indexSignature | .statement | .lexicalDeclaration
  | .variableDeclaration | .functionSignature | .typeAliasDeclaration | .exportStatement
  | .ambientDeclaration => true
  | _ => false

/-- Kinds of the trees in which variables may be visible from outside. -/
def exposes (k : Kind) : Bool :=
  isWrapper k || k == .program || k == .internalModule || k == .module

/-- A mark that ends what stands before it. -/
def isStop (t : Tree) : Bool :=
  t.kind == .token [';'] || t.kind == .token [','] || t.kind == .token ['}']

/-- Whether something else than the end of a line ends a tree before the next one. -/
def isStopped (t next : Tree) : Bool :=
  !mayEndWithLine t.kind || t.text.getLast? == some ';' || isStop next

def areStopped : List Tree → Bool
  | t :: next :: ts => isStopped t next && areStopped (next :: ts)
  | _ => true

/-- Whether no line end counts directly in a tree: it ends no comment and nothing among the
children. -/
def isUnbrokenAt (t : Tree) : Bool :=
  (!t.isComment || Text.startsWith "/*".toList t.text) &&
    areStopped (t.children.filter fun c => !c.isComment)

/-- Whether no line end counts in a tree. -/
def isUnbroken (t : Tree) : Bool := (visited t).all fun f => isUnbrokenAt f.tree

/-- Whether nothing in a tree is a declaration of its own or makes one visible. -/
def isPlain (t : Tree) : Bool :=
  t.parts.all fun c => (visited c).all fun f => !(declaresOne f.kind || exposes f.kind)

/-- Whether no comment stands before the final semicolon, if there is one. -/
def endsPlainly (t : Tree) : Bool :=
  match t.children.reverse with
  | last :: before :: _ => !(last.isSemicolon && before.isComment)
  | _ => true

/-- Whether a tree declares the same on one line and without a final semicolon. -/
def isSettled (t : Tree) : Bool := isUnbroken t && isPlain t && endsPlainly t

/-- Whether the names in a definition have no white space but single spaces. -/
structure Definition.SingleSpaced (d : Definition) : Prop where
  name : Text.squeeze d.name = d.name
  members : ∀ m ∈ d.members, Text.squeeze m.name = m.name

/-- A text with one space in place of every run of white space. -/
def Squeezed (s t : Text) : Prop := t = Text.squeeze s

instance (s t : Text) : Decidable (Squeezed s t) := inferInstanceAs (Decidable (_ = _))

/-- A text without final semicolons and commas. -/
def unended (s : Text) : Text :=
  Text.trimEnd (Text.trimEndOf (fun c => c == ';' || c == ',') s)

/-- What is read is one tree without fault. -/
structure IsSingle (root t : Tree) : Prop where
  kind : root.kind = .program
  faultless : root.hasFault = false
  children : root.children = [t]

/-- What is assumed of a reading of source texts. -/
structure ReadsTypes (read : Text → Tree) : Prop where
  /-- A type in a text without fault is the same tree where its own text is read. -/
  alone {s : Text} {f : Focus} (faultless : (read s).hasFault = false) (found : f ∈ visited (read s))
    (type : declaresType f.kind = true) : ∃ t, IsSingle (read f.tree.text) t ∧ Copy Eq f.tree t
  /-- Where no line end counts, one space is as good as any run of white space. -/
  spaced {s : Text} {t : Tree} (single : IsSingle (read s) t) (type : declaresType t.kind = true)
    (unbroken : isUnbroken t = true) :
    ∃ t', IsSingle (read (Text.collapse s)) t' ∧ Copy Squeezed t t'
  /-- At the end of a text a semicolon may be left out. -/
  unended {s : Text} {t : Tree} (single : IsSingle (read s) t) (type : declaresType t.kind = true)
    (plainly : endsPlainly t = true) (collapsed : Text.collapse s = s) :
    ∃ t', IsSingle (read (unended s)) t' ∧ Kin Eq t t' ∧ t'.parts = t'.children

theorem squeezed_trimOf (s t : Text) (squeezed : Squeezed s t) :
    Squeezed (Text.trimOf isQuote s) (Text.trimOf isQuote t) := by
  rw [Squeezed, squeezed, Text.squeeze_trimOf isQuote_of_isBlank]

theorem eq_trimOf (s t : Text) (same : s = t) : Text.trimOf isQuote s = Text.trimOf isQuote t :=
  congrArg (Text.trimOf isQuote) same

theorem declaresOne_of_declaresType {k : Kind} (type : declaresType k = true) :
    declaresOne k = true := by
  cases k <;> first | rfl | cases type

theorem exposes_of_declaresType {k : Kind} (type : declaresType k = true) : exposes k = false := by
  cases k <;> first | rfl | cases type

theorem ne_variableDeclarator_of_declaresType {k : Kind} (type : declaresType k = true) :
    k ≠ .variableDeclarator := by
  rintro rfl
  cases type

section
variable {R : Text → Text → Prop} {t t' : Tree}

theorem areStopped_eq {ts us : List Tree} (copies : List.Forall₂ (Copy Eq) ts us) :
    areStopped us = areStopped ts := by
  induction copies with
  | nil => rfl
  | @cons t t' ts us first rest ih =>
      cases rest with
      | nil => rfl
      | @cons u u' ts us second rest =>
          rw [areStopped, areStopped, ih, isStopped, isStopped, isStop, isStop, first.like.kind,
            second.like.kind, first.related]

theorem isComment_eq (copy : Copy R t t') : t'.isComment = t.isComment :=
  congrArg (· == Kind.comment) copy.like.kind

theorem isUnbrokenAt_eq (copy : Copy Eq t t') : isUnbrokenAt t' = isUnbrokenAt t := by
  have others : List.Forall₂ (Copy Eq) (t.children.filter fun c => !c.isComment)
      (t'.children.filter fun c => !c.isComment) := by
    refine List.rel_filter (fun c c' both => ?_) copy.children
    change (!c.isComment) = true ↔ (!c'.isComment) = true
    rw [isComment_eq both]
  rw [isUnbrokenAt, isUnbrokenAt, isComment_eq copy, ← copy.related, areStopped_eq others]

theorem all_eq_of_forall₂ {A : Type} {S : A → A → Prop} {p : A → Bool} {as bs : List A}
    (agree : ∀ a b, S a b → p b = p a) (rel : List.Forall₂ S as bs) : bs.all p = as.all p := by
  induction rel with
  | nil => rfl
  | cons first _ ih => rw [List.all_cons, List.all_cons, agree _ _ first, ih]

theorem isUnbroken_eq (copy : Copy Eq t t') : isUnbroken t' = isUnbroken t :=
  all_eq_of_forall₂ (fun _ _ both => isUnbrokenAt_eq both.tree) (forall₂_visited copy)

theorem isPlain_eq (kin : Kin R t t') : isPlain t' = isPlain t := by
  refine all_eq_of_forall₂ (fun c c' copy => ?_) kin.parts
  refine all_eq_of_forall₂ (fun f g both => ?_) (forall₂_visited copy)
  rw [Focus.kind, Focus.kind, both.tree.like.kind]

theorem endsPlainly_eq (copy : Copy R t t') : endsPlainly t' = endsPlainly t := by
  have children := List.forall₂_reverse_iff.2 copy.children
  rw [endsPlainly, endsPlainly]
  generalize t.children.reverse = ts at children
  generalize t'.children.reverse = us at children
  cases children with
  | nil => rfl
  | cons last rest =>
      cases rest with
      | nil => rfl
      | cons before _ =>
          dsimp only
          rw [last.like.isSemicolon_eq, isComment_eq before]

end

theorem hasFaultAll_eq_false_iff {ts : List Tree} :
    Tree.hasFaultAll ts = false ↔ ∀ t ∈ ts, t.hasFault = false := by
  induction ts with
  | nil => exact iff_of_true rfl nofun
  | cons t ts ih => rw [Tree.hasFaultAll, Bool.or_eq_false_iff, ih, List.forall_mem_cons]

theorem ownFault_eq_nil_iff {t : Tree} :
    ownFault t = [] ↔ t.label.missing = false ∧ (t.kind == .unreadable) = false := by
  rw [← List.length_eq_zero_iff, length_ownFault, ite_eq_right_iff, beq_eq_false_iff_ne,
    Bool.eq_false_iff]
  refine ⟨fun none => ⟨fun missing => ?_, fun unreadable => ?_⟩, fun both either => ?_⟩
  · exact absurd (none (.inr missing)) Nat.one_ne_zero
  · exact absurd (none (.inl unreadable)) Nat.one_ne_zero
  · exact absurd either (not_or_intro both.2 both.1)

/-- A tree is without fault if nothing in it is one. -/
theorem hasFault_eq_false_iff (f : Focus) :
    f.tree.hasFault = false ↔ ∀ g ∈ Focus.visit f.above f.tree, ownFault g.tree = [] := by
  induction f using Focus.by_children with
  | step f ih =>
      have inside : (∀ c ∈ f.children, c.tree.hasFault = false) ↔
          ∀ t ∈ f.tree.children, t.hasFault = false := by
        rw [← Focus.map_tree_childrenAfter f.tree f.above [] f.tree.children, List.forall_mem_map]
        rfl
      have whole : f.tree.hasFault = false ↔
          ownFault f.tree = [] ∧ ∀ c ∈ f.children, c.tree.hasFault = false := by
        rw [inside, ownFault_eq_nil_iff]
        obtain ⟨⟨l, ts⟩, above⟩ := f
        rw [Tree.hasFault, Bool.or_eq_false_iff, Bool.or_eq_false_iff, hasFaultAll_eq_false_iff]
        rfl
      rw [whole]
      constructor
      · rintro ⟨own, below⟩ g member
        rcases Focus.mem_visit.1 member with rfl | ⟨c, child, deeper⟩
        · exact own
        · exact (ih c child).1 (below c child) g deeper
      · intro each
        refine ⟨each f (Focus.mem_visit.2 (.inl rfl)), fun c child => ?_⟩
        exact (ih c child).2 fun g deeper => each g (Focus.mem_visit.2 (.inr ⟨c, child, deeper⟩))

theorem ownFault_of_findings {f : Focus} (none : (findings f).faults = []) :
    ownFault f.tree = [] := by
  have contributes := contributes_findings f
  generalize findings f = file at contributes none
  cases contributes with
  | nothing other => exact none
  | definition known built => exact none
  | fault known failed =>
      exact absurd none (List.append_ne_nil_of_right_ne_nil _ (List.cons_ne_nil _ _))

theorem hasFault_of_collect {t : Tree} (none : (collect t).faults = []) : t.hasFault = false :=
  (hasFault_eq_false_iff ⟨t, []⟩).2 fun g member =>
    ownFault_of_findings (faults_collect_eq_nil_iff.1 none g member)

mutual
theorem map_tree_visit (above above' : List Frame) (t : Tree) :
    (Focus.visit above t).map Focus.tree = (Focus.visit above' t).map Focus.tree :=
  match t with
  | .node l ts => by
    rw [Focus.visit, Focus.visit, List.map_cons, List.map_cons,
      map_tree_visitAll (.node l ts) above above' [] [] ts]

theorem map_tree_visitAll (parent : Tree) (above above' : List Frame) (before before' ts : List Tree) :
    (Focus.visitAll parent above before ts).map Focus.tree =
      (Focus.visitAll parent above' before' ts).map Focus.tree :=
  match ts with
  | [] => rfl
  | t :: ts => by
    rw [Focus.visitAll, Focus.visitAll, List.map_append, List.map_append,
      map_tree_visit (⟨parent, before⟩ :: above) (⟨parent, before'⟩ :: above') t,
      map_tree_visitAll parent above above' (t :: before) (t :: before') ts]
end

theorem exists_of_build {f : Focus} {d : Declared} {definition : Definition}
    (built : build f d = .ok definition) : ∃ name, definition.kind = (d.definition name).kind ∧
      definition.signature = (d.definition name).signature := by
  rw [build] at built
  split at built
  · cases built
  · next name _ =>
      cases built
      exact ⟨name, rfl, rfl⟩

theorem type_of_classify {f : Focus} {d : Declared} {name : Text} (known : classify f = some d)
    (shape : (d.definition name).kind.isTypeLike = true) :
    declaresType f.kind = true ∧ (d.definition name).signature = signatureText f.tree := by
  unfold classify at known
  dsimp only at known
  rw [Focus.kind]
  split at known
  · split at known
    · cases known
    · split at known
      · cases known
        rw [Declared.definition, variableDefinition] at shape
        dsimp only at shape
        split at shape <;> cases shape
      · cases known
  · split at known
    · cases known
    · split at known
      all_goals cases known
      all_goals cases shape
      all_goals
        next same =>
          rw [same]
          exact ⟨rfl, rfl⟩

/-- A declaration is a tree that declares one thing, or a variable that is visible from outside. -/
theorem cases_of_classify {f : Focus} {d : Declared} (known : classify f = some d) :
    declaresOne f.kind = true ∨
      ∃ s, f.parent? = some s ∧ declaresVariables s.kind = true ∧ isTopLevel s = true := by
  unfold classify at known
  dsimp only at known
  rw [Focus.kind]
  split at known
  · split at known
    · cases known
    · next s up =>
        split at known
        · next seen =>
            rw [Bool.and_eq_true, Bool.or_eq_true, beq_iff_eq, beq_iff_eq] at seen
            refine .inr ⟨s, up, ?_, seen.2⟩
            rcases seen.1 with kind | kind <;> rw [kind] <;> rfl
        · cases known
  · split at known
    · cases known
    · split at known
      case h_8 => cases known
      all_goals
        next same =>
          rw [same]
          exact .inl rfl

/-- Variables visible from outside stand in a tree that exposes them, or in its block. -/
theorem cases_of_isTopLevel {s : Focus} (seen : isTopLevel s = true) :
    ∃ q, s.parent? = some q ∧ (exposes q.kind = true ∨
      ∃ r, q.parent? = some r ∧ exposes r.kind = true ∧ r.kind ≠ .program) := by
  rw [isTopLevel] at seen
  split at seen
  · cases seen
  · next q up =>
      refine ⟨q, up, ?_⟩
      split at seen
      · next same => exact .inl (same ▸ rfl)
      · next same => exact .inl (same ▸ rfl)
      · next same => exact .inl (same ▸ rfl)
      · cases outer : q.parent? with
        | none =>
            rw [outer] at seen
            cases seen
        | some r =>
            rw [outer, Option.map_some] at seen
            refine .inr ⟨r, rfl, ?_⟩
            have exposing {k : Kind} (same : some r.kind = some k)
                (known : exposes k = true ∧ k ≠ .program) :
                exposes r.kind = true ∧ r.kind ≠ .program := by
              rwa [Option.some.inj same]
            split at seen
            · next same => exact exposing same (by decide)
            · next same => exact exposing same (by decide)
            · next same => exact exposing same (by decide)
            · cases seen
      · cases seen

section
variable {root t : Tree} (single : IsSingle root t)
include single

/-- The trees of a single one are the root, the tree and what is in it. -/
theorem visited_single : visited root = ⟨root, []⟩ :: ⟨t, [⟨root, []⟩]⟩ ::
    Focus.visitAll t [⟨root, []⟩] [] t.children := by
  obtain ⟨l, ts⟩ := root
  obtain rfl : ts = [t] := single.children
  obtain ⟨l', us⟩ := t
  rw [visited, Focus.visit, Focus.visitAll, Focus.visitAll, List.append_nil, Focus.visit]
  rfl

variable (type : declaresType t.kind = true)
  (plain : ∀ g ∈ Focus.visitAll t [⟨root, []⟩] [] t.children,
    (declaresOne g.kind || exposes g.kind) = false)
include type plain

/-- Only the root exposes what is in it. -/
theorem eq_root_of_exposes {g : Focus} (member : g ∈ visited root)
    (exposing : exposes g.kind = true) : g = ⟨root, []⟩ := by
  rw [visited_single single, List.mem_cons, List.mem_cons] at member
  rcases member with rfl | rfl | inside
  · rfl
  · exact absurd exposing (Bool.eq_false_iff.1 (exposes_of_declaresType type))
  · have none := plain g inside
    rw [exposing, Bool.or_true] at none
    cases none

/-- Nothing in the tree is a declaration. -/
theorem classify_eq_none {g : Focus}
    (inside : g ∈ Focus.visitAll t [⟨root, []⟩] [] t.children) : classify g = none := by
  have member : g ∈ visited root := by
    rw [visited_single single]
    exact .tail _ (.tail _ inside)
  refine Option.eq_none_iff_forall_ne_some.2 fun d known => ?_
  rcases cases_of_classify known with one | ⟨s, up, several, seen⟩
  · have none := plain g inside
    rw [one, Bool.true_or] at none
    cases none
  · have statement := (Focus.mem_children_parent member up).2
    obtain ⟨q, up, exposing⟩ := cases_of_isTopLevel seen
    obtain ⟨below, around⟩ := Focus.mem_children_parent statement up
    rcases exposing with exposing | ⟨r, up, exposing, other⟩
    · obtain rfl := eq_root_of_exposes single type plain around exposing
      rw [Focus.children, single.children] at below
      obtain rfl := List.mem_singleton.1 below
      have one := declaresVariables_of_declaresOne (declaresOne_of_declaresType type)
      exact absurd several (Bool.eq_false_iff.1 one)
    · have outer := (Focus.mem_children_parent around up).2
      obtain rfl := eq_root_of_exposes single type plain outer exposing
      exact other single.kind

theorem collect_single {e : Definition} (made : e ∈ (findings ⟨t, [⟨root, []⟩]⟩).definitions) :
    (collect root).faults = [] ∧ (collect root).definitions = [e] := by
  obtain ⟨d, known, built⟩ := mem_findings_iff.1 made
  have sound := (hasFault_eq_false_iff ⟨root, []⟩).1 single.faultless
  have nothing {g : Focus} (member : g ∈ visited root) (none : classify g = none) :
      findings g = ⟨[], []⟩ := by
    rw [findings, none, sound g member]
  have top : classify ⟨root, []⟩ = none := by
    refine Option.eq_none_iff_forall_ne_some.2 fun d known => ?_
    rcases cases_of_classify known with one | ⟨s, up, -⟩
    · rw [Focus.kind, single.kind] at one
      cases one
    · cases up
  have inside : contributions (Focus.visitAll t [⟨root, []⟩] [] t.children) = ⟨[], []⟩ := by
    rw [contributions, File.mk.injEq, List.flatMap_eq_nil_iff, List.flatMap_eq_nil_iff]
    have each {g : Focus} (below : g ∈ Focus.visitAll t [⟨root, []⟩] [] t.children) :
        findings g = ⟨[], []⟩ := by
      refine nothing ?_ (classify_eq_none single type plain below)
      rw [visited_single single]
      exact .tail _ (.tail _ below)
    exact ⟨fun g below => by rw [each below], fun g below => by rw [each below]⟩
  have own : findings ⟨t, [⟨root, []⟩]⟩ = ⟨[e], []⟩ := by
    rw [findings, known]
    dsimp only
    rw [built, sound ⟨t, [⟨root, []⟩]⟩]
    rw [← visited, visited_single single]
    exact .tail _ (.head _)
  have whole : collect root = ⟨[e], []⟩ := by
    rw [collect_eq_contributions, visited_single single, contributions_cons, contributions_cons,
      inside, own, nothing ?_ top]
    · rfl
    · rw [visited_single single]
      exact .head _
  rw [whole]
  exact ⟨rfl, rfl⟩

end

theorem DeclaresSame.trans {d e g : Definition} (first : DeclaresSame d e)
    (second : DeclaresSame e g) : DeclaresSame d g :=
  ⟨second.name.trans first.name, second.kind.trans first.kind,
    second.generics.trans first.generics, second.extends_.trans first.extends_,
    second.implements_.trans first.implements_, second.members.trans first.members⟩

theorem Definition.SingleSpaced.of_declaresSame {d e : Definition} (spaced : d.SingleSpaced)
    (same : DeclaresSame d e) : e.SingleSpaced :=
  ⟨same.name ▸ spaced.name, same.members ▸ spaced.members⟩

section
variable {R : Text → Text → Prop} {d e : Definition}

/-- Where the relation leaves the names as they are, nothing differs. -/
theorem Definition.Alike.declaresSame (alike : d.Alike R e)
    (name : R d.name e.name → e.name = d.name)
    (members : ∀ m ∈ d.members, ∀ n, R m.name n → n = m.name) : DeclaresSame d e := by
  refine ⟨name alike.name, alike.kind, alike.generics, alike.extends_, alike.implements_, ?_⟩
  have each := alike.members
  generalize d.members = ms at each members
  generalize e.members = ns at each
  induction each with
  | nil => rfl
  | @cons m n ms ns first _ ih =>
      obtain ⟨kept, rest⟩ := List.forall_mem_cons.1 members
      obtain ⟨name, kind, type, optional, readonly⟩ := first
      have same : n = m := by
        cases m
        cases n
        simp only [Member.mk.injEq]
        exact ⟨name.elim id (kept _), kind, type, optional, readonly⟩
      rw [same, ih rest]

theorem declaresSame_of_eq (alike : d.Alike Eq e) : DeclaresSame d e :=
  alike.declaresSame Eq.symm fun _ _ _ => Eq.symm

theorem declaresSame_of_squeezed (alike : d.Alike Squeezed e) (spaced : d.SingleSpaced) :
    DeclaresSame d e :=
  alike.declaresSame (fun squeezed => squeezed.trans spaced.name)
    fun m member _ squeezed => squeezed.trans (spaced.members m member)

/-- A type is a definition wherever a tree with the same parts stands. -/
theorem exists_mem_findings
    (unquote : ∀ s u, R s u → R (Text.trimOf isQuote s) (Text.trimOf isQuote u)) {f g : Focus}
    (kin : Kin R f.tree g.tree) (type : declaresType f.kind = true)
    (made : d ∈ (findings f).definitions) : ∃ e ∈ (findings g).definitions, d.Alike R e := by
  obtain ⟨declared, known, built⟩ := mem_findings_iff.1 made
  have both := rel_classify kin fun same => absurd same (ne_variableDeclarator_of_declaresType type)
  rw [known] at both
  generalize known' : classify g = o at both
  cases both with
  | some alike =>
      obtain ⟨e, built', same⟩ := alike.exists_build unquote built
      exact ⟨e, mem_findings_iff.2 ⟨_, known', built'⟩, same⟩

end

theorem plain_below {root t : Tree} (plain : isPlain t = true) (parts : t.parts = t.children) :
    ∀ g ∈ Focus.visitAll t [⟨root, []⟩] [] t.children,
      (declaresOne g.kind || exposes g.kind) = false := by
  intro g inside
  rw [← Focus.flatMap_visit_childrenAfter, List.mem_flatMap] at inside
  obtain ⟨f, child, below⟩ := inside
  have part : f.tree ∈ t.parts := by
    rw [parts, ← Focus.map_tree_childrenAfter t [⟨root, []⟩] [] t.children]
    exact List.mem_map_of_mem child
  have same : g.tree ∈ (visited f.tree).map Focus.tree := by
    rw [visited, map_tree_visit [] f.above]
    exact List.mem_map_of_mem below
  obtain ⟨h, member, tree⟩ := List.mem_map.1 same
  have none := List.all_eq_true.1 (List.all_eq_true.1 plain f.tree part) h member
  rwa [Focus.kind, tree, Bool.not_eq_true'] at none

/-- An interface, an enumeration and a type alias over several lines. -/
def spread : Text :=
  ("interface A<T> extends J \x7b\n  b: T,\n  d(): E\n\x7d\n" ++
    "enum F \x7b\n  G,\n  H\n\x7d\ntype I =\n  A;\n").toList

/-- The types by themselves, on one line, and without the final semicolon. -/
def spreadTypes : List Text :=
  ["interface A<T> extends J \x7b\n  b: T,\n  d(): E\n\x7d",
   "interface A<T> extends J \x7b b: T, d(): E \x7d",
   "enum F \x7b\n  G,\n  H\n\x7d", "enum F \x7b G, H \x7d",
   "type I =\n  A;", "type I = A;", "type I = A"].map String.toList

/-- Reads a text of a list; all others are unreadable. -/
def readListed (texts : List Text) (s : Text) : Tree :=
  if texts.contains s then Syntax.read .plain s else .leaf .unreadable .start s

/-- The tree that a root is single with. -/
def single? (root : Tree) : Option Tree :=
  match root.children with
  | [t] => if root.kind == .program && !root.hasFault then some t else none
  | _ => none

theorem IsSingle.single?_eq {root t : Tree} (single : IsSingle root t) : single? root = some t := by
  rw [single?, single.children]
  dsimp only
  rw [single.kind, single.faultless]
  rfl

theorem isSingle_of_single? {root t : Tree} (found : single? root = some t) : IsSingle root t := by
  rw [single?] at found
  split at found
  · next children =>
      split at found
      · next sound =>
          rw [Bool.and_eq_true, beq_iff_eq, Bool.not_eq_true'] at sound
          cases found
          exact ⟨sound.1, sound.2, children⟩
      · cases found
  · cases found

theorem IsSingle.hasFault_eq {root t : Tree} (single : IsSingle root t) : t.hasFault = false := by
  have whole := single.faultless
  obtain ⟨l, ts⟩ := root
  obtain rfl : ts = [t] := single.children
  rw [Tree.hasFault, Bool.or_eq_false_iff] at whole
  exact hasFaultAll_eq_false_iff.1 whole.2 t List.mem_cons_self

/-- Whether the laws hold where one text is read. -/
def readsTypesOf (read : Text → Tree) (s : Text) : Bool :=
  let root := read s
  ((visited root).all fun f => !declaresType f.kind ||
    (single? (read f.tree.text)).any fun t => f.tree.isCopy Eq t) &&
  (single? root).all fun t =>
    ((single? (read (Text.collapse s))).any fun t' => t.isCopy Squeezed t') &&
    (Text.collapse s != s || (single? (read (unended s))).any fun t' =>
      t'.kind == t.kind && t.parts.length == t'.parts.length &&
        ((t.parts.zip t'.parts).all fun c => c.1.isCopy Eq c.2) &&
        t'.children.all fun c => !c.isSemicolon)

theorem readsTypes_of_listed {texts : List Text}
    (each : texts.all (readsTypesOf (readListed texts)) = true) : ReadsTypes (readListed texts) := by
  have listed {s : Text} (sound : (readListed texts s).hasFault = false) :
      readsTypesOf (readListed texts) s = true := by
    rw [readListed] at sound
    split at sound
    · next member => exact List.all_eq_true.1 each s (List.contains_iff_mem.1 member)
    · cases sound
  have same (s u : Text) (equal : s = u) : Text.Respaced s u := equal ▸ .refl s
  have narrow (s u : Text) (squeezed : Squeezed s u) : Text.Respaced s u := by
    rw [squeezed]
    exact .squeezed s
  refine ⟨fun {s f} sound found type => ?_, fun {s t} single type unbroken => ?_,
    fun {s t} single type plainly collapsed => ?_⟩
  · have checked := (Bool.and_eq_true_iff.1 (listed sound)).1
    have alone := List.all_eq_true.1 checked f found
    rw [type, Bool.not_true, Bool.false_or, Option.any_eq_true] at alone
    obtain ⟨t, single, copy⟩ := alone
    exact ⟨t, isSingle_of_single? single, Syntax.copy_of_isCopy same copy⟩
  · have checked := (Bool.and_eq_true_iff.1 (listed single.faultless)).2
    rw [single.single?_eq, Option.all_some, Bool.and_eq_true, Option.any_eq_true] at checked
    obtain ⟨⟨t', single', copy⟩, -⟩ := checked
    exact ⟨t', isSingle_of_single? single', Syntax.copy_of_isCopy narrow copy⟩
  · have checked := (Bool.and_eq_true_iff.1 (listed single.faultless)).2
    rw [single.single?_eq, Option.all_some, Bool.and_eq_true, collapsed, bne_self_eq_false,
      Bool.false_or] at checked
    obtain ⟨t', single', both⟩ := (Option.any_eq_true _ _).1 checked.2
    have single' := isSingle_of_single? single'
    simp only [Bool.and_eq_true, beq_iff_eq] at both
    obtain ⟨⟨⟨kind, length⟩, copies⟩, marks⟩ := both
    refine ⟨t', single', ⟨kind, ?_, List.forall₂_iff_zip.2 ⟨length, fun {a b} pair => ?_⟩⟩, ?_⟩
    · rw [single'.hasFault_eq, single.hasFault_eq]
    · exact Syntax.copy_of_isCopy same (List.all_eq_true.1 copies (a, b) pair)
    · exact List.filter_eq_self.2 (List.all_eq_true.1 marks)

end ApiReference.Declaration
