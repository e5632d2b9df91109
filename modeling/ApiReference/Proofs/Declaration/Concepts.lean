import ApiReference.Declaration.Signature
import ApiReference.Proofs.Declaration.Searching
import Mathlib.Data.List.Find

/-!
# What a concept names

A concept names the first definition of its name in any letter case, or else, of those in whose name
it occurs, the first of the shortest ones. Definitions in whose name it does not occur take no part
in the answer but as types referred to. Main statement: `extract_answers`.
-/

namespace ApiReference.Declaration

theorem shortestName_eq_none_iff {ds : List Definition} : shortestName ds = none ↔ ds = [] := by
  cases ds with
  | nil => exact iff_of_true rfl rfl
  | cons d ds =>
      refine iff_of_false ?_ (List.cons_ne_nil d ds)
      rw [shortestName]
      split
      · exact Option.some_ne_none d
      · split <;> exact Option.some_ne_none _

/-- Names before the shortest one are longer, and none behind it is shorter. -/
theorem shortestName_eq_some {ds : List Definition} {d : Definition}
    (shortest : shortestName ds = some d) : ∃ before after, ds = before ++ d :: after ∧
      (∀ e ∈ before, Text.byteLength d.name < Text.byteLength e.name) ∧
      ∀ e ∈ after, Text.byteLength d.name ≤ Text.byteLength e.name := by
  induction ds generalizing d with
  | nil => cases shortest
  | cons c ds ih =>
      rw [shortestName] at shortest
      split at shortest
      · next nothing =>
          cases shortest
          obtain rfl := shortestName_eq_none_iff.1 nothing
          exact ⟨[], [], rfl, List.forall_mem_nil _, List.forall_mem_nil _⟩
      · next e found =>
          obtain ⟨before, after, rfl, longer, others⟩ := ih found
          split at shortest
          · next less =>
              cases shortest
              exact ⟨c :: before, after, rfl, List.forall_mem_cons.2 ⟨less, longer⟩, others⟩
          · next more =>
              cases shortest
              have least := Nat.le_of_not_lt more
              refine ⟨[], _, rfl, List.forall_mem_nil _, ?_⟩
              refine List.forall_mem_append.2 ⟨fun b member => ?_,
                List.forall_mem_cons.2 ⟨least, ?_⟩⟩
              · exact Nat.le_trans least (Nat.le_of_lt (longer b member))
              · exact fun a member => Nat.le_trans least (others a member)

/-- Whether a concept in lower case occurs in the name of a definition. -/
def Names (key : Text) (d : Definition) : Prop := key <:+: Text.lower d.name

instance (key : Text) (d : Definition) : Decidable (Names key d) :=
  decidable_of_iff _ Text.occursIn_iff

/-- The first definition of the name in any letter case, or if there is none the first of those with
the shortest name in which it occurs. -/
inductive IsPrimary (key : Text) : List Definition → Definition → Prop
  | exact {before after : List Definition} {d : Definition} (same : Text.lower d.name = key)
      (first : ∀ e ∈ before, Text.lower e.name ≠ key) : IsPrimary key (before ++ d :: after) d
  | part {before after : List Definition} {d : Definition}
      (none : ∀ e ∈ before ++ d :: after, Text.lower e.name ≠ key) (names : Names key d)
      (first : ∀ e ∈ before, Names key e → Text.byteLength d.name < Text.byteLength e.name)
      (least : ∀ e ∈ after, Names key e → Text.byteLength d.name ≤ Text.byteLength e.name) :
      IsPrimary key (before ++ d :: after) d

theorem IsPrimary.names {key : Text} {ds : List Definition} {d : Definition}
    (isPrimary : IsPrimary key ds d) : Names key d := by
  cases isPrimary with
  | exact same _ => exact same ▸ List.infix_rfl
  | part _ names _ _ => exact names

theorem filter_occursIn (ds : List Definition) (key : Text) :
    (ds.filter fun d => Text.occursIn key (Text.lower d.name)) = ds.filter fun d => Names key d :=
  List.filter_congr fun d _ => by rw [Bool.eq_iff_iff, Text.occursIn_iff, decide_eq_true_iff, Names]

theorem primary?_eq_none_iff {key : Text} {ds : List Definition} :
    primary? ds key = none ↔ ∀ d ∈ ds, ¬ Names key d := by
  rw [primary?, filter_occursIn, Option.orElse_eq_orElse, Option.orElse_eq_or, Option.or_eq_none_iff,
    shortestName_eq_none_iff, List.find?_eq_none, List.filter_eq_nil_iff]
  simp only [beq_iff_eq, decide_eq_true_eq]
  refine and_iff_right_of_imp fun none d member same => none d member ?_
  exact same ▸ List.infix_rfl

theorem isPrimary_of_primary? {key : Text} {ds : List Definition} {d : Definition}
    (found : primary? ds key = some d) : IsPrimary key ds d := by
  unfold primary? at found
  cases exact : ds.find? fun d => Text.lower d.name == key with
  | some e =>
      rw [exact] at found
      cases found
      obtain ⟨same, before, after, rfl, others⟩ := List.find?_eq_some_iff_append.1 exact
      refine .exact (eq_of_beq same) fun e member equal => ?_
      simpa [equal] using others e member
  | none =>
      rw [exact, filter_occursIn] at found
      obtain ⟨front, back, split, longer, least⟩ := shortestName_eq_some found
      obtain ⟨before, rest, rfl, rfl, parts⟩ := List.filter_eq_append_iff.1 split
      obtain ⟨between, after, rfl, none, names, rfl⟩ := List.filter_eq_cons_iff.1 parts
      rw [← List.append_assoc] at exact ⊢
      refine .part (fun e member same => ?_) (of_decide_eq_true names) (fun e member inside => ?_)
        fun e member inside => ?_
      · exact List.find?_eq_none.1 exact e member (beq_iff_eq.2 same)
      · rcases List.mem_append.1 member with member | member
        · exact longer e (List.mem_filter.2 ⟨member, decide_eq_true inside⟩)
        · exact absurd (decide_eq_true inside) (none e member)
      · exact least e (List.mem_filter.2 ⟨member, decide_eq_true inside⟩)

/-- Whether definitions come of others by putting in some of a kind anywhere. -/
inductive Inserts (kind : Definition → Prop) : List Definition → List Definition → Prop
  | nil : Inserts kind [] []
  | keep {ds more : List Definition} (d : Definition) :
      Inserts kind ds more → Inserts kind (d :: ds) (d :: more)
  | put {ds more : List Definition} (d : Definition) :
      kind d → Inserts kind ds more → Inserts kind ds (d :: more)

theorem Inserts.filter_eq {kind : Definition → Prop} {ds more : List Definition}
    (inserts : Inserts kind ds more) {p : Definition → Bool} (out : ∀ d, kind d → p d = false) :
    more.filter p = ds.filter p := by
  induction inserts with
  | nil => rfl
  | keep d _ ih => rw [List.filter_cons, List.filter_cons, ih]
  | put d isKind _ ih => rw [List.filter_cons_of_neg (Bool.eq_false_iff.1 (out d isKind)), ih]

section
variable {key : Text} {ds more : List Definition}
  (inserts : Inserts (fun d => ¬ Names key d) ds more)
include inserts

theorem primary?_of_inserts : primary? more key = primary? ds key := by
  have parts := inserts.filter_eq (p := fun d => Names key d) fun d => decide_eq_false
  have exact (ds : List Definition) : (ds.find? fun d => Text.lower d.name == key) =
      (ds.filter fun d => Names key d).find? fun d => Text.lower d.name == key := by
    rw [List.find?_filter]
    refine List.find?_congr fun d _ => ?_
    rw [Bool.eq_iff_iff, decide_eq_true_iff, decide_eq_true_iff, beq_iff_eq]
    exact (and_iff_right_of_imp fun same => same ▸ List.infix_rfl).symm
  rw [primary?, primary?, exact more, exact ds, filter_occursIn, filter_occursIn, parts]

theorem overloads_of_inserts {name : Text} (inside : key <:+: Text.lower name) :
    overloads more name = overloads ds name := by
  rw [overloads, overloads, inserts.filter_eq]
  intro d outside
  refine Bool.and_eq_false_imp.2 fun _ => beq_false_of_ne fun same => outside ?_
  rwa [Names, same]

end

/-- The functions of a name, in order of declaration. -/
def functionsOf (definitions : List Definition) (name : Text) : List Definition :=
  definitions.filter fun d => d.kind = .function ∧ d.name = name

theorem overloads_eq (definitions : List Definition) (name : Text) :
    overloads definitions name = (functionsOf definitions name).map Definition.signature := by
  refine congrArg (List.map Definition.signature) (List.filter_congr fun d _ => ?_)
  rw [Bool.eq_iff_iff, Bool.and_eq_true, beq_iff_eq, beq_iff_eq, decide_eq_true_iff]

/-- Whether an answer is that of one definition: all that it says of a single definition is said of
this one, and its overloads are all functions of the same name if there are two or more. -/
structure Describes (file : File) (d : Definition) (api : ApiSignature) : Prop where
  name : api.name = d.name
  kind : api.kind = d.kind
  signature : api.signature = d.signature
  description : api.description = d.description
  parameters : api.parameters = d.parameters
  returnType : api.returnType = d.returnDisplay
  generics : api.generics = d.generics
  examples : api.examples = d.examples
  seeAlso : api.seeAlso = d.seeAlso
  deprecated : api.deprecated = d.deprecated
  deprecationMessage : api.deprecationMessage = d.deprecationMessage
  overloaded : api.overloads.isSome = true ↔ 2 ≤ (functionsOf file.definitions d.name).length
  overloads : ∀ listed, api.overloads = some listed →
    listed = (functionsOf file.definitions d.name).map Definition.signature

theorem describes_of_extract {file : File} {concept : Text} {api : ApiSignature}
    (found : extract file concept = some api) :
    ∃ d, IsPrimary (phrase concept) file.definitions d ∧ Describes file d api := by
  simp only [extract] at found
  split at found
  · cases found
  · obtain ⟨d, primary, rfl⟩ := Option.map_eq_some_iff.1 found
    refine ⟨d, isPrimary_of_primary? primary, ⟨rfl, rfl, rfl, rfl, rfl, rfl, rfl, rfl, rfl, rfl, rfl,
      ?_, fun listed made => ?_⟩⟩
    · rw [overloads_eq, List.length_map]
      split
      · next several => exact iff_of_true rfl several
      · next single => exact iff_of_false Bool.false_ne_true single
    · rw [overloads_eq] at made
      split at made
      · exact (Option.some.inj made).symm
      · cases made

theorem extract_eq_none_iff {file : File} {concept : Text} : extract file concept = none ↔
    phrase concept = [] ∨ ∀ d ∈ file.definitions, ¬ phrase concept <:+: Text.lower d.name := by
  simp only [extract]
  split
  · next nothing => exact iff_of_true rfl (.inl (List.isEmpty_iff.1 nothing))
  · next some =>
      rw [Option.map_eq_none_iff, primary?_eq_none_iff]
      exact (or_iff_right (mt List.isEmpty_iff.2 some)).symm

theorem extract_of_inserts {file more : File} {concept : Text}
    (inserts : Inserts (fun d => ¬ Names (phrase concept) d) file.definitions more.definitions) :
    (extract more concept).map (fun api => { api with relatedTypes := [] }) =
      (extract file concept).map fun api => { api with relatedTypes := [] } := by
  simp only [extract]
  split
  · rfl
  · rw [← phrase, primary?_of_inserts inserts]
    cases primary : primary? file.definitions (phrase concept) with
    | none => rfl
    | some d =>
        have inside := (isPrimary_of_primary? primary).names
        simp only [Option.map_some, overloads_of_inserts inserts inside]

end ApiReference.Declaration
