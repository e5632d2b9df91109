import ApiReference.Proofs.Declaration.LeadingComments
import ApiReference.Proofs.Declaration.References
import ApiReference.Proofs.Text.Trimming

/-!
# Type parameters among the references

A type parameter is known by the first word of its text, up to an equals sign. If that word is its
name, no other declaration of the name is reported. A modifier before the name, or anything else
directly behind it, makes it another word. Main statement: `relatedTypes_typeParameters`.
-/

namespace ApiReference.Syntax
open Cursor (Leads Reaches)

/-- Where a tree stands among others. -/
theorem Lays.exists_of_mem {c d : Cursor} {ts : List Tree} {t : Tree} (lays : Lays c ts d)
    (member : t ∈ ts) : ∃ b e, Reaches c b ∧ t.start = b.position ∧ Leads t.text b e ∧
      Lays b t.children e ∧ Reaches e d := by
  obtain ⟨before, after, rfl⟩ := List.append_of_mem member
  obtain ⟨m, first, rest⟩ := lays.exists_of_append
  cases rest with
  | tree skipped start text inside after =>
      exact ⟨_, _, first.reaches.trans skipped, start, text, inside, after.reaches⟩

/-- The text of a child is part of the text of a tree. -/
theorem Lays.exists_part {b e : Cursor} {t s : Tree} (start : t.start = b.position)
    (text : Leads t.text b e) (inside : Lays b t.children e) (member : s ∈ t.children) :
    ∃ lead rest, t.text = lead ++ (s.text ++ rest) ∧ s.start = t.start.after lead := by
  obtain ⟨m, n, ⟨lead, first⟩, begins, part, -, rest, last⟩ := inside.exists_of_mem member
  refine ⟨lead, rest, ?_, ?_⟩
  · have whole := text.rest
    rw [first.rest, part.rest, last.rest] at whole
    refine (List.append_left_inj e.rest).1 ?_
    rw [← whole, List.append_assoc, List.append_assoc]
  · rw [begins, first.position, start]

end ApiReference.Syntax

namespace ApiReference.Declaration
open ApiReference.Syntax (Tree Focus Lays)
open ApiReference.Text (isBlank)

def typeParametersOf (t : Tree) : List Tree :=
  match t.child? .typeParameters with
  | none => []
  | some params => params.children.filter fun c => c.kind == .typeParameter

/-- The tree that the type parameters of a declaration are written in: for a variable that of its
function type. -/
def Declared.parameterized? : Declared → Option Tree
  | function t | interface t | typeAlias t | classType t => some t
  | enumeration _ => none
  | variable_ _ declarator => (declarator.child? .type).bind fun t => t.childOfKind? .functionType

def Declared.typeParameters (d : Declared) : List Tree :=
  (d.parameterized?.map typeParametersOf).getD []

theorem generics_eq (t : Tree) :
    generics t = (typeParametersOf t).map fun p => Text.collapse p.text := by
  unfold generics typeParametersOf
  cases t.child? .typeParameters <;> rfl

theorem Declared.generics_definition (d : Declared) (name : Text) :
    (d.definition name).generics = d.typeParameters.map fun p => Text.collapse p.text := by
  cases d with
  | function t => exact generics_eq t
  | interface t => exact generics_eq t
  | typeAlias t => exact generics_eq t
  | classType t => exact generics_eq t
  | enumeration t => rfl
  | variable_ statement declarator =>
      change (variableDefinition statement declarator name _).generics = _
      unfold variableDefinition typeParameters parameterized?
      dsimp only
      cases (declarator.child? .type).bind fun t => t.childOfKind? .functionType with
      | none => rfl
      | some functionType => exact generics_eq functionType

section
variable {t rest name : Text}

theorem genericName_append {word : Text} (ended : ∀ c ∈ rest.head?, isBlank c = true) :
    genericName (word ++ rest) = genericName word := by
  unfold genericName
  induction word with
  | nil =>
      cases rest with
      | nil => rfl
      | cons c rest =>
          rw [List.nil_append, List.takeWhile_cons, ended c rfl]
          rfl
  | cons c word ih => rw [List.cons_append, List.takeWhile_cons, List.takeWhile_cons, ih]

/-- White space in a type parameter makes no difference to its first word. -/
theorem genericName_collapse (t : Text) :
    genericName (Text.collapse t) = genericName (Text.trimStart t) := by
  obtain ⟨w, rest, more, trimmed, collapsed, stopped, ended⟩ := Text.exists_first_word t
  rw [trimmed, collapsed, genericName_append stopped, genericName_append ended]

theorem IsTypeName.trimStart_append (isName : IsTypeName name) (rest : Text) :
    Text.trimStart (name ++ rest) = name ++ rest := by
  cases name with
  | nil => exact isName.elim
  | cons c name =>
      have kept := isName.continues c List.mem_cons_self
      rw [Bool.not_eq_true', Bool.or_eq_false_iff] at kept
      exact List.dropWhile_cons_of_neg (Bool.eq_false_iff.1 kept.1)

end

/-- Whether a declaration that stands in a source text makes a definition. -/
def Makes (dialect : Syntax.Dialect) (source : Text) (d : Declared) (definition : Definition) :
    Prop :=
  ∃ f ∈ visited (Syntax.read dialect source), classify f = some d ∧ build f d = .ok definition

section
variable {dialect : Syntax.Dialect} {source : Text} {d : Declared} {definition : Definition}
variable {f : Focus} {p t : Tree}

theorem mem_ofSource_iff : definition ∈ (File.ofSource dialect source).definitions ↔
    ∃ d, Makes dialect source d definition := by
  rw [File.ofSource, mem_collect_iff]
  simp only [mem_findings_iff]
  constructor
  · rintro ⟨f, member, d, made⟩
    exact ⟨d, f, member, made⟩
  · rintro ⟨d, f, member, made⟩
    exact ⟨f, member, d, made⟩

theorem Declared.cases_parameterized (found : d.parameterized? = some t) :
    t = d.tree ∨ ∃ s ∈ d.tree.children, t ∈ s.children := by
  cases d with
  | enumeration => cases found
  | variable_ statement declarator =>
      obtain ⟨s, outer, inner⟩ := Option.bind_eq_some_iff.1 found
      exact .inr ⟨s, List.mem_of_find?_eq_some outer, List.mem_of_find?_eq_some inner⟩
  | _ => exact .inl (Option.some.inj found).symm

theorem mem_typeParametersOf (member : p ∈ typeParametersOf t) :
    ∃ params ∈ t.children, p ∈ params.children := by
  unfold typeParametersOf at member
  split at member
  · cases member
  · next params found =>
      exact ⟨params, List.mem_of_find?_eq_some found, List.mem_of_mem_filter member⟩

theorem Makes.generics (makes : Makes dialect source d definition) :
    definition.generics = d.typeParameters.map fun p => Text.collapse p.text := by
  obtain ⟨f, -, -, built⟩ := makes
  unfold build at built
  split at built
  · cases built
  · next name _ =>
      cases built
      exact d.generics_definition name

/-- What is in a type parameter stands in its text. -/
theorem Makes.exists_part (makes : Makes dialect source d definition) (own : p ∈ d.typeParameters)
    {n : Tree} (member : n ∈ p.children) :
    ∃ lead rest, p.text = lead ++ (n.text ++ rest) ∧ n.start = p.start.after lead := by
  obtain ⟨f, visit, known, -⟩ := makes
  obtain ⟨c, e, lays⟩ := Syntax.lays_of_mem_visit visit
  rw [← tree_of_classify known] at lays
  unfold Declared.typeParameters at own
  cases found : d.parameterized? with
  | none =>
      rw [found] at own
      cases own
  | some t =>
      rw [found] at own
      obtain ⟨c, e, lays⟩ : ∃ c e, Lays c t.children e := by
        rcases Declared.cases_parameterized found with rfl | ⟨s, outer, inner⟩
        · exact ⟨c, e, lays⟩
        · obtain ⟨_, _, -, -, -, lays, -⟩ := lays.exists_of_mem outer
          obtain ⟨_, _, -, -, -, lays, -⟩ := lays.exists_of_mem inner
          exact ⟨_, _, lays⟩
      obtain ⟨params, outer, inner⟩ := mem_typeParametersOf own
      obtain ⟨_, _, -, -, -, lays, -⟩ := lays.exists_of_mem outer
      obtain ⟨b, e, -, start, text, inside, -⟩ := lays.exists_of_mem inner
      exact Lays.exists_part start text inside member

end

/-- No type is reported that has the name of a type parameter of the definition, if the type parameter
begins with its name and white space, an equals sign or nothing follows there. Of the names of types
that are referred to and declared none is left out but the definition's own, those built in and
those with which the text of a type parameter begins. -/
theorem relatedTypes_typeParameters (dialect : Syntax.Dialect) (source : Text) :
    (∀ definition ∈ (File.ofSource dialect source).definitions,
      ∃ d, Makes dialect source d definition) ∧
    ∀ d definition, Makes dialect source d definition →
      (∀ p ∈ d.typeParameters, ∀ n, p.child? .name = some n → ∃ lead rest,
        p.text = lead ++ (n.text ++ rest) ∧ n.start = p.start.after lead ∧
        (lead = [] → EndsName rest → n.text ∉
          (relatedTypes (File.ofSource dialect source) definition).map RelatedType.name)) ∧
      ∀ name,
        name ∈ (relatedTypes (File.ofSource dialect source) definition).map RelatedType.name ↔
          (IsTypeName name ∧ RefersTo definition name) ∧
          (name ≠ definition.name ∧ name ∉ builtinTypes ∧
            ∀ p ∈ d.typeParameters, ¬ BeginsWith name (Text.trimStart p.text)) ∧
          ∃ e ∈ (File.ofSource dialect source).definitions, e.name = name := by
  refine ⟨fun definition => mem_ofSource_iff.1, fun d definition makes => ?_⟩
  have told (name : Text) :
      name ∈ (relatedTypes (File.ofSource dialect source) definition).map RelatedType.name ↔
        (IsTypeName name ∧ RefersTo definition name) ∧
        (name ≠ definition.name ∧ name ∉ builtinTypes ∧
          ∀ p ∈ d.typeParameters, ¬ BeginsWith name (Text.trimStart p.text)) ∧
        ∃ e ∈ (File.ofSource dialect source).definitions, e.name = name := by
    obtain ⟨s, surveyed, types⟩ := exists_surveyed (File.ofSource dialect source) definition
    rw [types, surveyed.related, mem_map_name_iff, surveyed.seen, mem_allReferences_iff,
      isNoReference_eq_false_iff, makes.generics, List.forall_mem_map, and_assoc]
    refine and_congr_right fun refers => and_congr_left' (and_congr_right' (and_congr_right' ?_))
    refine forall₂_congr fun p own => not_congr ?_
    rw [genericName_collapse, genericName_eq_iff refers.1]
  refine ⟨fun p own n named => ?_, told⟩
  obtain ⟨lead, rest, text, place⟩ := makes.exists_part own (List.mem_of_find?_eq_some named)
  refine ⟨lead, rest, text, place, fun first ends reported => ?_⟩
  obtain ⟨⟨isName, -⟩, ⟨-, -, other⟩, -⟩ := (told n.text).1 reported
  subst first
  refine other p own ⟨rest, ?_, ends⟩
  rw [text, List.nil_append, isName.trimStart_append]

/-- A constraint and a default behind the name of a type parameter make no difference. -/
example :
    ∀ d ∈ (File.ofSource .plain
      "declare function f<T extends object = {}>(x: T): void;\ninterface T {}".toList).definitions,
      relatedTypes (File.ofSource .plain
        "declare function f<T extends object = {}>(x: T): void;\ninterface T {}".toList) d = [] := by
  decide +kernel

/-- A function whose type parameter has a modifier, beside an interface of the same name. -/
def modified : Text := "declare function f<const T>(x: T): void;\ninterface T {}".toList

/-- An interface may be reported that has the name of a type parameter with a modifier. -/
theorem relatedTypes_modified : ∃ d definition, Makes .plain modified d definition ∧
    ∃ p ∈ d.typeParameters, ∃ n, p.child? .name = some n ∧
      n.text ∈ (relatedTypes (File.ofSource .plain modified) definition).map RelatedType.name := by
  obtain ⟨definition, found, related⟩ :
      ∃ definition ∈ (findings (functionIn modified)).definitions, "T".toList ∈
        (relatedTypes (File.ofSource .plain modified) definition).map RelatedType.name := by
    decide +kernel
  have written : ((classify (functionIn modified)).map fun d =>
      d.typeParameters.map fun p => (p.child? .name).map Tree.text) = some [some "T".toList] := by
    decide +kernel
  obtain ⟨d, known, built⟩ := mem_findings_iff.1 found
  rw [known] at written
  obtain ⟨p, more, own, named, -⟩ := List.map_eq_cons_iff.1 (Option.some.inj written)
  obtain ⟨n, child, text⟩ := Option.map_eq_some_iff.1 named
  exact ⟨d, definition, ⟨_, mem_visited_functionIn _, known, built⟩, p, own ▸ List.mem_cons_self, n,
    child, text ▸ related⟩

end ApiReference.Declaration
