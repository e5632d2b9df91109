import ApiReference.Proofs.Declaration.Walking
import ApiReference.Proofs.Syntax.Copy

/-!
# Declarations and copies of them

What a tree declares its copies declare as well, up to the texts that a definition takes over as they
are: its name and the names of its members. All other texts are collapsed first, so it does not
matter how wide the gaps in them are. Main statements: `rel_member`, `Declared.Alike.definition`,
`rel_classify`, `alike_contributions`.
-/

namespace ApiReference.Declaration
open ApiReference.Syntax (Tree Focus Kind Role Frame Position Cursor Places Copy Kin Spans
  map_eq_of_rel rel_bind_childOfKind?)
open ApiReference.Syntax.Cursor (Leads)
open ApiReference.Syntax.Places (Onward)
open ApiReference.Text (Respaced isBlank)

theorem isColon_of_isBlank (c : Char) (blank : isBlank c = true) : (c == ':') = false := by
  refine Bool.eq_false_iff.2 fun colon => ?_
  rw [beq_iff_eq.1 colon] at blank
  exact absurd blank (by decide)

theorem isQuote_of_isBlank (c : Char) (blank : isBlank c = true) : isQuote c = false := by
  refine Bool.eq_false_iff.2 fun quote => ?_
  rw [isQuote, Bool.or_eq_true, beq_iff_eq, beq_iff_eq] at quote
  rcases quote with rfl | code
  · exact absurd blank (by decide)
  · rw [isBlank, code] at blank
    exact absurd blank (by decide)

section
variable {R : Text → Text → Prop} {t t' name : Tree} {b d n k : Places}

theorem collapse_text_eq (copy : Copy R t t') : Text.collapse t'.text = Text.collapse t.text :=
  copy.respaced.collapse_eq

theorem signatureText_eq (copy : Copy R t t') : signatureText t' = signatureText t := by
  rw [signatureText, signatureText, collapse_text_eq copy]

theorem typeText_eq (copy : Copy R t t') : typeText t' = typeText t :=
  (copy.respaced.trimStart.trimStartOf isColon_of_isBlank).collapse_eq

theorem partOf_eq {b n k d : Cursor} {x y z : Text} (start : t.start = b.position)
    (text : Leads t.text b d) (first : Leads x b n) (second : Leads y n k) (third : Leads z k d) :
    partOf t n.position k.position = y := by
  have whole : t.text = x ++ (y ++ z) := by
    have rest := (first.trans (second.trans third)).rest
    rw [text.rest] at rest
    exact List.append_cancel_right rest
  have first' : Leads x ⟨t.start, t.text⟩ ⟨n.position, y ++ z⟩ := ⟨whole, start ▸ first.position⟩
  have second' : Leads y ⟨n.position, y ++ z⟩ ⟨k.position, z⟩ := ⟨rfl, second.position⟩
  exact Cursor.between_eq (d := ⟨n.position, y ++ z⟩) (e := ⟨k.position, z⟩) first' second'

theorem partOf_of_reaches {n k : Cursor} (back : Cursor.Reaches k n) :
    partOf t n.position k.position = [] := by
  obtain ⟨x, leads⟩ := back
  rw [partOf, leads.position, Position.offset_after, Nat.sub_add_eq, Nat.sub_self, Nat.zero_sub]
  exact Syntax.takeBytes_append [] _

/-- The parts of a tree and its copy between places that follow one another. -/
theorem respaced_partOf (spans : Spans R t t' b d) (before : Onward b n) (after : Onward k d)
    (order : Onward n k ∨ Onward k n) :
    Respaced (partOf t n.left.position k.left.position)
      (partOf t' n.right.position k.right.position) := by
  rcases order with ⟨y, y', between⟩ | ⟨y, y', back⟩
  · obtain ⟨x, x', first⟩ := before
    obtain ⟨z, z', third⟩ := after
    rw [partOf_eq spans.start spans.text.left first.left between.left third.left,
      partOf_eq spans.start' spans.text.right first.right between.right third.right]
    exact between.respaced
  · rw [partOf_of_reaches ⟨y, back.left⟩, partOf_of_reaches ⟨y', back.right⟩]
    exact .refl []

/-- What follows the name of a method. -/
theorem callText_eq (copy : Copy R t t') (named : t.child? .name = some name) :
    ∃ name', t'.child? .name = some name' ∧ Copy R name name' ∧
      callText t' name' = callText t name := by
  have body := copy.kin.child? .body
  obtain ⟨b, d, spans⟩ := copy
  have agree (r : Role) (u u' : Tree) (like : u.Like u') := like.inRole_eq r
  rw [callText]
  cases found : t.child? .body with
  | none =>
      rw [found] at body
      obtain ⟨name', m, n, named', before, inside, after⟩ := spans.inside.find? (agree .name) named
      have none' : t'.child? .body = none := by
        generalize t'.child? .body = o at body
        cases body
        rfl
      refine ⟨name', named', ⟨m, n, inside⟩, ?_⟩
      have part := respaced_partOf spans (before.trans ⟨_, _, inside.text⟩) (.refl d) (.inl after)
      rw [callText, none', inside.stop.1, inside.stop.2, spans.stop.1, spans.stop.2,
        part.collapse_eq]
  | some c =>
      obtain ⟨name', c', m, n, k, l, named', found', inside, inside', before, after, order⟩ :=
        spans.inside.find?_find? (agree .name) (agree .body) named found
      have found'' : t'.child? .body = some c' := found'
      refine ⟨name', named', ⟨m, n, inside⟩, ?_⟩
      have part := respaced_partOf spans before after order
      rw [callText, found'']
      dsimp only
      rw [inside.stop.1, inside.stop.2, inside'.start, inside'.start', part.collapse_eq]

theorem map_child?_eq {A : Type} {f : Tree → A} (same : ∀ c c', Copy R c c' → f c' = f c)
    (kin : Kin R t t') (r : Role) : (t'.child? r).map f = (t.child? r).map f :=
  map_eq_of_rel same (kin.child? r)

theorem childType_eq (kin : Kin R t t') (r : Role) :
    (t'.child? r).map typeText = (t.child? r).map typeText :=
  map_child?_eq (fun _ _ => typeText_eq) kin r

theorem collapse_child?_eq (kin : Kin R t t') (r : Role) :
    ((t'.child? r).map fun c => Text.collapse c.text) =
      (t.child? r).map fun c => Text.collapse c.text :=
  map_child?_eq (fun _ _ => collapse_text_eq) kin r

theorem collapse_filter_eq {ts us : List Tree} (p : Kind → Bool)
    (copies : List.Forall₂ (Copy R) ts us) :
    ((us.filter fun c => p c.kind).map fun c => Text.collapse c.text) =
      (ts.filter fun c => p c.kind).map fun c => Text.collapse c.text := by
  induction copies with
  | nil => rfl
  | cons first _ ih =>
      rw [List.filter_cons, List.filter_cons, first.like.kind]
      split
      · rw [List.map_cons, List.map_cons, collapse_text_eq first, ih]
      · exact ih

theorem generics_eq_of_kin (kin : Kin R t t') : generics t' = generics t := by
  have params := kin.child? .typeParameters
  rw [generics, generics]
  generalize t.child? .typeParameters = o at params
  generalize t'.child? .typeParameters = o' at params
  cases params with
  | none => rfl
  | some params => exact collapse_filter_eq (· == .typeParameter) params.children

theorem returnType_eq (kin : Kin R t t') : returnType t' = returnType t := by
  rw [returnType, returnType, childType_eq kin]

theorem clauseTypes_eq (copy : Copy R t t') (keyword : String) :
    clauseTypes t' keyword = clauseTypes t keyword := by
  rw [clauseTypes, clauseTypes, collapse_text_eq copy]

theorem heritage_eq (kin : Kin R t t') {k : Kind} (other : k ≠ .token [';']) (keyword : String) :
    heritage t' k keyword = heritage t k keyword := by
  have clauses := rel_bind_childOfKind? (kin.childOfKind? (k := .classHeritage) nofun) other
  rw [heritage, heritage]
  generalize (t.childOfKind? .classHeritage).bind (fun h => h.childOfKind? k) = o at clauses
  generalize (t'.childOfKind? .classHeritage).bind (fun h => h.childOfKind? k) = o' at clauses
  cases clauses with
  | none => rfl
  | some clause => exact clauseTypes_eq clause keyword

/-- Two members that differ at most in their names, and these as the texts of copies do. -/
structure Member.Alike (R : Text → Text → Prop) (m n : Member) : Prop where
  name : n.name = m.name ∨ R m.name n.name
  kind : n.kind = m.kind
  type : n.type = m.type
  optional : n.optional = m.optional
  readonly : n.readonly = m.readonly

theorem Member.Alike.refl (m : Member) : m.Alike R m := ⟨.inl rfl, rfl, rfl, rfl, rfl⟩

theorem rel_propertyMember (copy : Copy R t t') :
    Option.Rel (Member.Alike R) (propertyMember t) (propertyMember t') := by
  have kin := copy.kin
  have names := kin.child? .name
  rw [propertyMember, propertyMember]
  generalize t.child? .name = o at names
  generalize t'.child? .name = o' at names
  cases names with
  | none => exact .none
  | some name =>
      refine .some ⟨.inr name.related, rfl, ?_, copy.hasToken_eq _, copy.hasToken_eq _⟩
      exact congrArg (Option.getD · "any".toList) (childType_eq kin .type)

theorem rel_methodMember (copy : Copy R t t') :
    Option.Rel (Member.Alike R) (methodMember t) (methodMember t') := by
  have kin := copy.kin
  cases named : t.child? .name with
  | none =>
      have names := kin.child? .name
      rw [named] at names
      generalize named' : t'.child? .name = o' at names
      cases names
      rw [methodMember, methodMember, named, named']
      exact .none
  | some name =>
      obtain ⟨name', named', same, call⟩ := callText_eq copy named
      rw [methodMember, methodMember, named, named']
      refine .some ⟨.inr same.related, ?_, ?_, ?_, ?_⟩
      all_goals dsimp only
      all_goals simp only [copy.hasToken_eq, call, returnType_eq kin]

theorem indexMember_eq (copy : Copy R t t') : indexMember t' = indexMember t := by
  have type := childType_eq copy.kin .type
  have readonly := copy.hasToken_eq "readonly".toList
  obtain ⟨b, d, spans⟩ := copy
  have agree (r : Role) (u u' : Tree) (like : u.Like u') := like.inRole_eq r
  rw [indexMember, indexMember, type, readonly]
  cases found : t.child? .type with
  | none =>
      rw [found, Option.map_none, Option.map_eq_none_iff] at type
      have whole := respaced_partOf spans (.refl b) (.refl d) (.inl ⟨_, _, spans.text⟩)
      dsimp only
      rw [type, spans.start, spans.start', spans.stop.1, spans.stop.2, whole.collapse_eq]
  | some c =>
      obtain ⟨c', m, n, found', before, inside, after⟩ := spans.inside.find? (agree .type) found
      have found'' : t'.child? .type = some c' := found'
      have part := respaced_partOf spans (.refl b) (.trans ⟨_, _, inside.text⟩ after) (.inl before)
      rw [found'']
      dsimp only
      rw [spans.start, spans.start', inside.start, inside.start', part.collapse_eq]

theorem rel_member (copy : Copy R t t') :
    Option.Rel (Member.Alike R) (member t) (member t') := by
  have property := rel_propertyMember copy
  have method := rel_methodMember copy
  have same (m : Member) : Option.Rel (Member.Alike R) (some m) (some m) := .some (.refl m)
  rw [member, member, copy.like.kind, signatureText_eq copy, indexMember_eq copy]
  cases t.kind <;> first | exact .none | exact property | exact method | exact same _

theorem forall₂_membersBy {read : Tree → Option Member}
    (rel : ∀ c c', Copy R c c' → Option.Rel (Member.Alike R) (read c) (read c'))
    (kin : Kin R t t') : List.Forall₂ (Member.Alike R) (membersBy read t) (membersBy read t') := by
  have body := kin.child? .body
  rw [membersBy, membersBy]
  generalize t.child? .body = o at body
  generalize t'.child? .body = o' at body
  cases body with
  | none => exact .nil
  | some body => exact List.rel_filterMap (fun c c' copy => rel c c' copy) body.children

/-- Two definitions that declare the same up to the names taken over as they are. -/
structure Definition.Alike (R : Text → Text → Prop) (d e : Definition) : Prop where
  name : R d.name e.name
  kind : e.kind = d.kind
  generics : e.generics = d.generics
  extends_ : e.extends_ = d.extends_
  implements_ : e.implements_ = d.implements_
  members : List.Forall₂ (Member.Alike R) d.members e.members

theorem Documentation.alike_applyTo {d e : Definition} (alike : d.Alike R e)
    (doc doc' : Documentation) : (doc.applyTo d).Alike R (doc'.applyTo e) :=
  ⟨alike.name, alike.kind, alike.generics, alike.extends_, alike.implements_, alike.members⟩

/-- Two trees that declare alike. -/
inductive Declared.Alike (R : Text → Text → Prop) : Declared → Declared → Prop where
  | function {t t' : Tree} (kin : Kin R t t') : Alike R (.function t) (.function t')
  | interface {t t' : Tree} (kin : Kin R t t') : Alike R (.interface t) (.interface t')
  | typeAlias {t t' : Tree} (kin : Kin R t t') : Alike R (.typeAlias t) (.typeAlias t')
  | classType {t t' : Tree} (kin : Kin R t t') : Alike R (.classType t) (.classType t')
  | enumeration {t t' : Tree} (kin : Kin R t t') : Alike R (.enumeration t) (.enumeration t')
  | variable_ {s s' t t' : Tree} (kin : Kin R t t') : Alike R (.variable_ s t) (.variable_ s' t')

theorem Declared.Alike.kin {d e : Declared} (alike : Alike R d e) : Kin R d.tree e.tree := by
  cases alike <;> assumption

/-- The kinds of the trees around a focus, innermost first. -/
def aboveKinds (above : List Frame) : List Kind := above.map fun frame => frame.parent.kind

theorem isTopLevel_eq {f g : Focus} (above : aboveKinds g.above = aboveKinds f.above) :
    isTopLevel g = isTopLevel f := by
  obtain ⟨s, frames⟩ := f
  obtain ⟨s', frames'⟩ := g
  dsimp only at above
  cases frames with
  | nil =>
      obtain rfl := List.map_eq_nil_iff.1 above
      rfl
  | cons frame frames =>
      obtain ⟨frame', rest, rfl, kind, outer⟩ := List.map_eq_cons_iff.1 above
      have around : (Focus.parent? ⟨frame'.parent, rest⟩).map Focus.kind =
          (Focus.parent? ⟨frame.parent, frames⟩).map Focus.kind := by
        have heads := congrArg List.head? outer
        cases rest <;> cases frames <;> first | rfl | exact heads
      have kind : frame'.parent.kind = frame.parent.kind := kind
      rw [isTopLevel, isTopLevel]
      simp only [Focus.parent?, Focus.kind] at around ⊢
      rw [kind, around]

/-- Two trees with the same children declare alike; for variables it counts what is around them. -/
theorem rel_classify {f g : Focus} (kin : Kin R f.tree g.tree)
    (above : f.kind = .variableDeclarator → aboveKinds g.above = aboveKinds f.above) :
    Option.Rel (Declared.Alike R) (classify f) (classify g) := by
  have names : (g.tree.child? .name).isNone = (f.tree.child? .name).isNone := by
    have names := kin.child? .name
    generalize f.tree.child? .name = o at names
    generalize g.tree.child? .name = o' at names
    cases names <;> rfl
  rw [Focus.kind] at above
  unfold classify
  dsimp only
  rw [names, kin.kind, kin.fault]
  generalize f.tree.kind = k at above
  cases k
  case variableDeclarator =>
      have above := above rfl
      obtain ⟨s, frames⟩ := f
      obtain ⟨s', frames'⟩ := g
      dsimp only at above
      cases frames with
      | nil =>
          obtain rfl := List.map_eq_nil_iff.1 above
          exact .none
      | cons frame frames =>
          obtain ⟨frame', rest, rfl, kind, outer⟩ := List.map_eq_cons_iff.1 above
          have same : Focus.kind ⟨frame'.parent, rest⟩ = Focus.kind ⟨frame.parent, frames⟩ := kind
          have seen : isTopLevel ⟨frame'.parent, rest⟩ = isTopLevel ⟨frame.parent, frames⟩ :=
            isTopLevel_eq outer
          simp only [Focus.parent?]
          rw [same, seen]
          split
          · exact .some (.variable_ kin)
          · exact .none
  all_goals
    dsimp only
    split
    · exact .none
    · first
      | exact .none
      | exact .some (.function kin)
      | exact .some (.interface kin)
      | exact .some (.typeAlias kin)
      | exact .some (.classType kin)
      | exact .some (.enumeration kin)

/-- A tree and its copy, each within trees of the same kinds. -/
structure CopyFocus (R : Text → Text → Prop) (f g : Focus) : Prop where
  tree : Copy R f.tree g.tree
  above : aboveKinds g.above = aboveKinds f.above

mutual
theorem forall₂_visit {t t' : Tree} {above above' : List Frame} (copy : Copy R t t')
    (same : aboveKinds above' = aboveKinds above) :
    List.Forall₂ (CopyFocus R) (Focus.visit above t) (Focus.visit above' t') :=
  match t, t' with
  | .node l ts, .node l' ts' => by
    rw [Focus.visit, Focus.visit]
    exact .cons ⟨copy, same⟩ (forall₂_visitAll copy.like.kind same [] [] copy.children)

theorem forall₂_visitAll {parent parent' : Tree} {above above' : List Frame}
    (kind : parent'.kind = parent.kind) (same : aboveKinds above' = aboveKinds above)
    (before before' : List Tree) {ts us : List Tree} (copies : List.Forall₂ (Copy R) ts us) :
    List.Forall₂ (CopyFocus R) (Focus.visitAll parent above before ts)
      (Focus.visitAll parent' above' before' us) :=
  match ts, us, copies with
  | [], [], .nil => .nil
  | t :: ts, u :: us, .cons first rest => by
    have around : aboveKinds (⟨parent', before'⟩ :: above') =
        aboveKinds (⟨parent, before⟩ :: above) := congrArg₂ List.cons kind same
    rw [Focus.visitAll, Focus.visitAll]
    exact List.rel_append (forall₂_visit first around)
      (forall₂_visitAll kind same (t :: before) (u :: before') rest)
end

theorem forall₂_visited {t t' : Tree} (copy : Copy R t t') :
    List.Forall₂ (CopyFocus R) (visited t) (visited t') := forall₂_visit copy rfl

end

section
variable {R : Text → Text → Prop} {t t' : Tree} {d e : Declared} {f g : Focus}
  (unquote : ∀ s u, R s u → R (Text.trimOf isQuote s) (Text.trimOf isQuote u))
include unquote

theorem rel_enumMember (copy : Copy R t t') :
    Option.Rel (Member.Alike R) (enumMember t) (enumMember t') := by
  let named (name : Tree) (value : Option Text) : Member :=
    ⟨Text.trimOf isQuote name.text, .enumValue, value.getD "auto".toList, false, true⟩
  have alike {name name' : Tree} (copy : Copy R name name') (value : Option Text) :
      (named name value).Alike R (named name' value) :=
    ⟨.inr (unquote _ _ copy.related), rfl, rfl, rfl, rfl⟩
  have assigned : Option.Rel (Member.Alike R)
      ((t.child? .name).map (named · ((t.child? .value).map fun v => Text.collapse v.text)))
      ((t'.child? .name).map (named · ((t'.child? .value).map fun v => Text.collapse v.text))) := by
    rw [collapse_child?_eq copy.kin .value]
    have names := copy.kin.child? .name
    generalize t.child? .name = o at names
    generalize t'.child? .name = o' at names
    cases names with
    | none => exact .none
    | some name => exact .some (alike name _)
  rw [enumMember, enumMember, copy.like.kind]
  cases t.kind <;> first | exact .none | exact .some (alike copy none) | exact assigned

namespace Declared.Alike

theorem rel_name? (alike : Alike R d e) : Option.Rel R d.name? e.name? := by
  have names := alike.kin.child? .name
  rw [name?, name?]
  generalize d.tree.child? .name = o at names
  generalize e.tree.child? .name = o' at names
  cases names with
  | none => exact .none
  | @some c c' copy =>
      have respaced := copy.respaced.trimOf isQuote_of_isBlank
      have same : (Text.trimOf isQuote c'.text).isEmpty = (Text.trimOf isQuote c.text).isEmpty := by
        rw [Bool.eq_iff_iff, List.isEmpty_iff, List.isEmpty_iff]
        exact respaced.eq_nil_iff.symm
      rw [Option.map_some, Option.map_some, Option.filter_some, Option.filter_some, same]
      split
      · exact .some (unquote _ _ copy.related)
      · exact .none

theorem definition (alike : Alike R d e) {name name' : Text} (named : R name name') :
    Definition.Alike R (d.definition name) (e.definition name') := by
  cases alike with
  | function kin => exact ⟨named, rfl, generics_eq_of_kin kin, rfl, rfl, .nil⟩
  | typeAlias kin => exact ⟨named, rfl, generics_eq_of_kin kin, rfl, rfl, .nil⟩
  | @interface t t' kin =>
      refine ⟨named, rfl, generics_eq_of_kin kin, ?_, rfl,
        forall₂_membersBy (fun _ _ => rel_member) kin⟩
      exact congrArg (Option.getD · []) (map_eq_of_rel (fun c c' same => clauseTypes_eq same "extends")
        (kin.childOfKind? (k := .extendsTypeClause) nofun))
  | classType kin =>
      exact ⟨named, rfl, generics_eq_of_kin kin, heritage_eq kin (k := .extendsClause) nofun _,
        heritage_eq kin (k := .implementsClause) nofun _,
        forall₂_membersBy (fun _ _ => rel_member) kin⟩
  | enumeration kin =>
      exact ⟨named, rfl, rfl, rfl, rfl, forall₂_membersBy (fun _ _ => rel_enumMember unquote) kin⟩
  | @variable_ s s' t t' kin =>
      have functions := rel_bind_childOfKind? (kin.child? .type) (k := .functionType) nofun
      rw [Declared.definition, Declared.definition, variableDefinition, variableDefinition]
      dsimp only
      generalize (t.child? .type).bind (fun u => u.childOfKind? .functionType) = o at functions
      generalize (t'.child? .type).bind (fun u => u.childOfKind? .functionType) = o' at functions
      cases functions with
      | none => exact ⟨named, rfl, rfl, rfl, rfl, .nil⟩
      | some type => exact ⟨named, rfl, generics_eq_of_kin type.kin, rfl, rfl, .nil⟩

/-- What can be built for one of two trees that declare alike can be built for the other. -/
theorem exists_build (alike : Alike R d e) {made : Definition} (built : build f d = .ok made) :
    ∃ again, build g e = .ok again ∧ made.Alike R again := by
  have names := alike.rel_name? unquote
  rw [build] at built ⊢
  generalize d.name? = o at names built
  generalize e.name? = o' at names
  cases names with
  | none => cases built
  | some named =>
      cases built
      exact ⟨_, rfl, Documentation.alike_applyTo (alike.definition unquote named) _ _⟩

end Declared.Alike

/-- The files of two trees declare alike, and have as many faults. -/
structure File.Alike (R : Text → Text → Prop) (a b : File) : Prop where
  definitions : List.Forall₂ (Definition.Alike R) a.definitions b.definitions
  faults : b.faults.length = a.faults.length

theorem alike_findings (copy : CopyFocus R f g) : (findings f).Alike R (findings g) := by
  have kin := copy.tree.kin
  have own : (ownFault g.tree).length = (ownFault f.tree).length := by
    rw [length_ownFault, length_ownFault, kin.kind, copy.tree.like.missing]
  have known := rel_classify kin fun _ => copy.above
  rw [findings, findings]
  generalize classify f = o at known
  generalize classify g = o' at known
  cases known with
  | none => exact ⟨.nil, own⟩
  | @some d e alike =>
      have names := alike.rel_name? unquote
      dsimp only
      rw [build, build]
      generalize d.name? = o at names
      generalize e.name? = o' at names
      cases names with
      | none =>
          refine ⟨.nil, ?_⟩
          dsimp only
          rw [List.length_append, List.length_append, own]
          rfl
      | some named =>
          refine ⟨.cons (Documentation.alike_applyTo ?_ _ _) .nil, own⟩
          exact alike.definition unquote named

theorem alike_contributions {fs gs : List Focus} (copies : List.Forall₂ (CopyFocus R) fs gs) :
    (contributions fs).Alike R (contributions gs) := by
  induction copies with
  | nil => exact ⟨.nil, rfl⟩
  | cons first _ ih =>
      have found := alike_findings unquote first
      rw [contributions_cons, contributions_cons]
      refine ⟨List.rel_append found.definitions ih.definitions, ?_⟩
      rw [File.add, File.add, List.length_append, List.length_append, found.faults, ih.faults]

end
end ApiReference.Declaration
