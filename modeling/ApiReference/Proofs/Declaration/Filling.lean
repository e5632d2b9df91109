import ApiReference.Proofs.Declaration.LeadingComments
import ApiReference.Proofs.Declaration.Sections

/-!
# Which comments a field comes from

A definition is documented by the nearest documentation block before it, and where the block does not
give a field, by all of the comments read as one text. A parameter that the block names without a
text is left without one, though the comments may have it. Main statement: `findings_prefer`.
-/

namespace ApiReference.Declaration
open ApiReference.Syntax (Focus)

namespace Documentation

/-- What the nearest documentation block says by itself. -/
def ofBlock (comments : List Text) : Documentation :=
  match comments.reverse.find? (Text.startsWith "/**".toList) with
  | some block => ofLines (stripComment block)
  | none => empty

/-- What all of the comments say, read as one text. -/
def ofText (comments : List Text) : Documentation := ofLines (comments.flatMap stripComment)

theorem ofComments_eq (comments : List Text) :
    ofComments comments = (ofBlock comments).fillMissing (ofText comments) := rfl

section
variable (doc other : Documentation) (d : Definition)

theorem applyTo_description : (doc.applyTo d).description = doc.description := rfl

theorem applyTo_returnsDoc : (doc.applyTo d).returnsDoc = doc.returns := rfl

theorem applyTo_deprecationMessage : (doc.applyTo d).deprecationMessage = doc.deprecated := rfl

theorem applyTo_examples : (doc.applyTo d).examples = doc.examples := rfl

theorem applyTo_seeAlso : (doc.applyTo d).seeAlso = doc.seeAlso := rfl

theorem fillMissing_description :
    (doc.fillMissing other).description = doc.description.or other.description :=
  Option.orElse_eq_or

theorem fillMissing_returns : (doc.fillMissing other).returns = doc.returns.or other.returns :=
  Option.orElse_eq_or

theorem fillMissing_deprecated :
    (doc.fillMissing other).deprecated = doc.deprecated.or other.deprecated :=
  Option.orElse_eq_or

theorem fillMissing_examples : (doc.fillMissing other).examples =
    if doc.examples = [] then other.examples else doc.examples := by
  simp only [fillMissing, List.isEmpty_iff]

theorem fillMissing_seeAlso : (doc.fillMissing other).seeAlso =
    if doc.seeAlso = [] then other.seeAlso else doc.seeAlso := by
  simp only [fillMissing, List.isEmpty_iff]

end

/-- A value that is present and not empty, or else another one. -/
def prefer (value other : Option Text) : Option Text := (value.bind given).or other

theorem given_ne_nil {t u : Text} (some : given t = some u) : u ≠ [] := by
  intro nothing
  unfold given at some
  split at some
  · cases some
  · next filled =>
      cases some
      exact filled nothing

theorem prefer_of_ne_nil {value : Option Text} (filled : ∀ t, value = some t → t ≠ [])
    (other : Option Text) : prefer value other = value.or other := by
  cases value with
  | none => rfl
  | some t => rw [prefer, Option.bind_some, given, if_neg (filled t rfl)]

/-- Documentation whose values are not empty where they are present. -/
structure Filled (doc : Documentation) : Prop where
  description : ∀ t, doc.description = some t → t ≠ []
  returns : ∀ t, doc.returns = some t → t ≠ []
  deprecated : ∀ t, doc.deprecated = some t → t ≠ []

theorem filled_empty : Filled empty := ⟨nofun, nofun, nofun⟩

theorem filled_ofLines (lines : List Text) : Filled (ofLines lines) := by
  have fields := ofLines_lines (Division.read lines)
  rw [Division.lines_read] at fields
  have last {f : Section → Option Text} (each : ∀ s t, f s = some t → t ≠ []) {t : Text}
      (found : ((Division.read lines).sections.filterMap f).getLast? = some t) : t ≠ [] := by
    obtain ⟨s, -, made⟩ := List.mem_filterMap.1 (List.mem_of_getLast? found)
    exact each s t made
  rw [fields]
  refine ⟨fun t => given_ne_nil, fun t => last fun s t made => ?_, fun t => last fun s t made => ?_⟩
  · unfold Section.result? at made
    split at made
    · exact given_ne_nil made
    · cases made
  · unfold Section.deprecation? at made
    split at made
    · cases made
      cases some : given s.inline with
      | none => exact List.cons_ne_nil _ _
      | some u => exact given_ne_nil some
    · cases made

theorem filled_ofBlock (comments : List Text) : Filled (ofBlock comments) := by
  unfold ofBlock
  split
  · exact filled_ofLines _
  · exact filled_empty

/-- Of a name that is in both lists the first text in the first list counts. -/
theorem find?_foldl_params (name : Text) (params more : List (Text × Text)) :
    ((more.foldl (fun params p => if params.any (fun q => q.1 == p.1) then params else params ++ [p])
      params).find? fun p => p.1 == name) =
      (params.find? fun p => p.1 == name).or (more.find? fun p => p.1 == name) := by
  induction more generalizing params with
  | nil => rw [List.foldl_nil, List.find?_nil, Option.or_none]
  | cons p more ih =>
      rw [List.foldl_cons, ih, List.find?_cons]
      cases same : p.1 == name with
      | true =>
          split
          · next listed =>
              obtain ⟨q, member, fits⟩ := List.any_eq_true.1 listed
              have found : (params.find? fun p => p.1 == name).isSome = true :=
                List.find?_isSome.2 ⟨q, member, beq_of_eq ((eq_of_beq fits).trans (eq_of_beq same))⟩
              rw [Option.or_of_isSome found, Option.or_of_isSome found]
          · rw [List.find?_append, Option.or_assoc, List.find?_singleton, if_pos same,
              Option.some_or]
      | false =>
          split
          · rfl
          · rw [List.find?_append, List.find?_singleton, if_neg (Bool.eq_false_iff.1 same),
              Option.or_none]

theorem paramText?_eq (doc : Documentation) (name : Text) : doc.paramText? name =
    (doc.params.find? fun p => p.1 == name).bind fun p => given p.2 := by
  unfold paramText?
  cases doc.params.find? fun p => p.1 == name with
  | none => rfl
  | some p =>
      rw [Option.map_some, Option.bind_some, given]
      by_cases nothing : p.2 = [] <;> simp [nothing]

/-- Whether the block names a parameter without a text, though the comments have one for it. -/
def Hides (comments : List Text) (name : Text) : Prop :=
  (ofBlock comments).params.find? (fun p => p.1 == name) = some (name, []) ∧
    (ofText comments).paramText? name ≠ none

theorem paramText?_ofComments (comments : List Text) (name : Text) :
    (ofComments comments).paramText? name =
      ((ofBlock comments).params.find? fun p => p.1 == name).elim ((ofText comments).paramText? name)
        fun p => given p.2 := by
  have merged : ((ofComments comments).params.find? fun p => p.1 == name) =
      ((ofBlock comments).params.find? fun p => p.1 == name).or
        ((ofText comments).params.find? fun p => p.1 == name) :=
    find?_foldl_params name (ofBlock comments).params (ofText comments).params
  rw [paramText?_eq, merged, paramText?_eq]
  cases (ofBlock comments).params.find? fun p => p.1 == name <;> rfl

/-- The text of a parameter is preferred like other values, except where the block hides it. -/
theorem paramText?_ofComments_iff (comments : List Text) (name : Text) :
    ((ofComments comments).paramText? name =
      prefer ((ofBlock comments).paramText? name) ((ofText comments).paramText? name) ↔
        ¬ Hides comments name) ∧
    (Hides comments name → (ofComments comments).paramText? name = none) := by
  rw [paramText?_ofComments, paramText?_eq (ofBlock comments), Hides]
  cases named : (ofBlock comments).params.find? fun p => p.1 == name with
  | none => exact ⟨⟨fun _ => nofun, fun _ => rfl⟩, nofun⟩
  | some p =>
      obtain ⟨first, t⟩ := p
      have same := List.find?_some named
      obtain rfl : first = name := eq_of_beq same
      cases t with
      | nil =>
          refine ⟨⟨fun nothing hides => hides.2 nothing.symm, fun shown => ?_⟩, fun _ => rfl⟩
          by_contra other
          exact shown ⟨rfl, fun nothing => other nothing.symm⟩
      | cons c t => exact ⟨⟨fun _ => nofun, fun _ => rfl⟩, nofun⟩

/-- Whether a definition has the values that the nearest documentation block gives if they are
present and not empty, and otherwise those that all comments read as text give. The text of a
parameter may be missing only where the block hides it. -/
structure Prefers (comments : List Text) (definition : Definition) : Prop where
  description : definition.description =
    prefer (ofBlock comments).description (ofText comments).description
  returnsDoc : definition.returnsDoc = prefer (ofBlock comments).returns (ofText comments).returns
  deprecationMessage : definition.deprecationMessage =
    prefer (ofBlock comments).deprecated (ofText comments).deprecated
  examples : definition.examples =
    if (ofBlock comments).examples = [] then (ofText comments).examples
    else (ofBlock comments).examples
  seeAlso : definition.seeAlso =
    if (ofBlock comments).seeAlso = [] then (ofText comments).seeAlso else (ofBlock comments).seeAlso
  parameters : ∀ p ∈ definition.parameters,
    (p.description = prefer ((ofBlock comments).paramText? p.name) ((ofText comments).paramText? p.name)
      ↔ ¬ Hides comments p.name) ∧
    (Hides comments p.name → p.description = none)

theorem prefers_applyTo (comments : List Text) (bare : Definition) :
    Prefers comments ((ofComments comments).applyTo bare) := by
  have filled := filled_ofBlock comments
  rw [ofComments_eq]
  constructor
  · rw [prefer_of_ne_nil filled.description, applyTo_description, fillMissing_description]
  · rw [prefer_of_ne_nil filled.returns, applyTo_returnsDoc, fillMissing_returns]
  · rw [prefer_of_ne_nil filled.deprecated, applyTo_deprecationMessage, fillMissing_deprecated]
  · rw [applyTo_examples, fillMissing_examples]
  · rw [applyTo_seeAlso, fillMissing_seeAlso]
  · intro p listed
    obtain ⟨q, -, rfl⟩ := List.mem_map.1 listed
    exact paramText?_ofComments_iff comments q.name

end Documentation

/-- Whatever a tree declares is documented by the nearest documentation block among its leading
comments, and by all of them where the block has nothing. The text of a parameter follows this rule
exactly if the block does not name the parameter without a text; if it does, there is none. -/
theorem findings_prefer {f : Focus} {definition : Definition}
    (found : definition ∈ (findings f).definitions) :
    Documentation.Prefers (leadingComments (anchor f)) definition := by
  obtain ⟨d, name, -, -, rfl⟩ := exists_of_mem_findings found
  exact Documentation.prefers_applyTo _ _

theorem findings_prefer_sum : ∃ definition ∈ (findings (functionIn
      "/** Adds one. */\n// @returns The sum.\ndeclare function f();".toList)).definitions,
    definition.description = some "Adds one.".toList ∧
    definition.returnsDoc = some "The sum.".toList ∧
    Documentation.Prefers ["/** Adds one. */".toList, "// @returns The sum.".toList] definition := by
  let f := functionIn "/** Adds one. */\n// @returns The sum.\ndeclare function f();".toList
  have read : leadingComments (anchor f) =
        ["/** Adds one. */".toList, "// @returns The sum.".toList] ∧
      ∃ definition ∈ (findings f).definitions, definition.description = some "Adds one.".toList ∧
        definition.returnsDoc = some "The sum.".toList := by decide +kernel
  obtain ⟨comments, definition, found, description, returns⟩ := read
  refine ⟨definition, found, description, returns, ?_⟩
  rw [← comments]
  exact findings_prefer found

/-- A function whose parameter is named by the block and described by the line comment. -/
def aside : Focus :=
  functionIn "// @param x The number.\n/** @param x */\ndeclare function f(x);".toList

open Documentation in
/-- A block that names a parameter and says nothing about it hides what a line comment says. -/
theorem findings_hide :
    ∃ definition ∈ (findings aside).definitions, ∃ p ∈ definition.parameters,
      (ofText (leadingComments (anchor aside))).paramText? p.name = some "The number.".toList ∧
      p.description ≠ prefer ((ofBlock (leadingComments (anchor aside))).paramText? p.name)
        ((ofText (leadingComments (anchor aside))).paramText? p.name) := by
  decide +kernel

end ApiReference.Declaration
