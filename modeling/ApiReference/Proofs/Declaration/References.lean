import ApiReference.Declaration.Collect
import ApiReference.Proofs.Declaration.TypeNames

/-!
# What a definition refers to

Of the names of types in its texts a definition is said to refer to those that are declared in the
file, each once, in the order in which they occur first, but for its own name, those built in and
its type parameters. A name stands for the first type of the name, or else for whatever has it
first. Main statement: `relatedTypes_answers`.
-/

namespace ApiReference.Declaration
open ApiReference.Text (isBlank)

section
variable (name : Text)

theorem find?_addType (types : List Definition) (d : Definition) :
    ((File.addType types d).find? fun e => e.name == name) =
      (types.find? fun e => e.name == name).or
        ([d].find? fun e => e.kind.isTypeLike && e.name == name) := by
  rw [File.addType, List.find?_singleton]
  cases typeLike : d.kind.isTypeLike with
  | false => simp only [Bool.false_and, Bool.false_eq_true, if_false, Option.or_none]
  | true =>
      cases taken : types.any (fun t => t.name == d.name) with
      | false =>
          simp only [Bool.not_false, Bool.true_and, if_true, List.find?_append, List.find?_singleton]
      | true =>
          -- Another one of the name is there already, so the new one changes nothing.
          simp only [Bool.not_true, Bool.and_false, Bool.false_eq_true, if_false, Bool.true_and]
          split
          · next same =>
              rw [eq_of_beq same, ← List.isSome_find?] at taken
              obtain ⟨e, found⟩ := Option.isSome_iff_exists.1 taken
              rw [found, Option.some_or]
          · rw [Option.or_none]

theorem find?_foldl_addType (ds types : List Definition) :
    ((ds.foldl File.addType types).find? fun e => e.name == name) =
      (types.find? fun e => e.name == name).or
        (ds.find? fun e => e.kind.isTypeLike && e.name == name) := by
  induction ds generalizing types with
  | nil => exact Option.or_none.symm
  | cons d ds ih =>
      rw [List.foldl_cons, ih, find?_addType, Option.or_assoc, ← List.find?_append,
        List.singleton_append]

/-- The types are indexed by the first declaration of each name. -/
theorem typeNamed?_eq (file : File) : file.typeNamed? name =
    file.definitions.find? fun e => e.kind.isTypeLike && e.name == name :=
  find?_foldl_addType name file.definitions []

end

/-- The first type of a name, or if there is none the first definition of it. -/
inductive StandsFor (name : Text) : List Definition → Definition → Prop
  | type {before after : List Definition} {d : Definition} (typeLike : d.kind.isTypeLike = true)
      (same : d.name = name) (first : ∀ e ∈ before, e.kind.isTypeLike = true → e.name ≠ name) :
      StandsFor name (before ++ d :: after) d
  | other {before after : List Definition} {d : Definition}
      (none : ∀ e ∈ before ++ d :: after, e.kind.isTypeLike = true → e.name ≠ name)
      (same : d.name = name) (first : ∀ e ∈ before, e.name ≠ name) :
      StandsFor name (before ++ d :: after) d

theorem lookup?_eq_none_iff {file : File} {name : Text} :
    file.lookup? name = none ↔ ∀ e ∈ file.definitions, e.name ≠ name := by
  rw [File.lookup?, typeNamed?_eq, Option.orElse_eq_orElse, Option.orElse_eq_or,
    Option.or_eq_none_iff, List.find?_eq_none, List.find?_eq_none]
  simp only [Bool.and_eq_true, beq_iff_eq, not_and]
  exact and_iff_right_of_imp fun none e member _ => none e member

theorem standsFor_of_lookup? {file : File} {name : Text} {d : Definition}
    (found : file.lookup? name = some d) : StandsFor name file.definitions d := by
  rw [File.lookup?, typeNamed?_eq, Option.orElse_eq_orElse, Option.orElse_eq_or] at found
  cases typed : file.definitions.find? fun e => e.kind.isTypeLike && e.name == name with
  | some e =>
      rw [typed] at found
      cases found
      obtain ⟨fits, before, after, split, others⟩ := List.find?_eq_some_iff_append.1 typed
      obtain ⟨typeLike, same⟩ := Bool.and_eq_true_iff.1 fits
      rw [split]
      refine .type typeLike (eq_of_beq same) fun e member typeLike equal => ?_
      simpa [typeLike, equal] using others e member
  | none =>
      rw [typed, Option.none_or] at found
      obtain ⟨same, before, after, split, others⟩ := List.find?_eq_some_iff_append.1 found
      rw [List.find?_eq_none] at typed
      rw [split] at typed ⊢
      refine .other (fun e member typeLike equal => ?_) (eq_of_beq same) fun e member equal => ?_
      · simpa [typeLike, equal] using typed e member
      · simpa [equal] using others e member

theorem StandsFor.declares {name : Text} {ds : List Definition} {d : Definition}
    (stands : StandsFor name ds d) : d ∈ ds ∧ d.name = name := by
  cases stands with
  | type _ same _ | other _ same _ => exact ⟨List.mem_append_right _ List.mem_cons_self, same⟩

/-- Whether a name is listed before another one is for the first time. -/
def FirstBefore (names : List Text) (v w : Text) : Prop :=
  ∃ lead rest, names = lead ++ v :: rest ∧ w ∉ lead ++ [v]

theorem FirstBefore.append {names : List Text} {v w : Text} (first : FirstBefore names v w)
    (more : List Text) : FirstBefore (names ++ more) v w := by
  obtain ⟨lead, rest, rfl, absent⟩ := first
  exact ⟨lead, rest ++ more, List.append_assoc lead (v :: rest) more, absent⟩

theorem firstBefore_of_not_mem {names : List Text} {v w : Text} (listed : v ∈ names)
    (absent : w ∉ names) : FirstBefore names v w := by
  obtain ⟨lead, rest, rfl⟩ := List.append_of_mem listed
  refine ⟨lead, rest, rfl, fun member => absent ?_⟩
  rw [← List.singleton_append, ← List.append_assoc]
  exact List.mem_append_left rest member

/-- Whether a name stands in texts, read one after the other, before another one does. -/
def ComesBefore (texts : List Text) (v w : Text) : Prop :=
  ∃ earlier t later a b, texts = earlier ++ t :: later ∧ t = a ++ (v ++ b) ∧ Apart a b ∧
    (∀ u ∈ earlier, ¬ StandsIn w u) ∧ ¬ StandsIn w (a ++ v)

theorem ComesBefore.ne {texts : List Text} {v w : Text} (before : ComesBefore texts v w) : v ≠ w := by
  obtain ⟨-, -, -, a, b, -, -, apart, -, absent⟩ := before
  rintro rfl
  refine absent ⟨a, [], ?_, apart.1, nofun⟩
  rw [List.append_nil]

theorem comesBefore_of_firstBefore {texts : List Text} {v w : Text} (isName : IsTypeName w)
    (first : FirstBefore (texts.flatMap references) v w) : ComesBefore texts v w := by
  have absent {t : Text} (other : w ∉ references t) : ¬ StandsIn w t := fun stands =>
    other (mem_references_iff.2 ⟨isName, stands⟩)
  induction texts with
  | nil =>
      obtain ⟨lead, rest, none, -⟩ := first
      exact absurd none.symm (List.append_ne_nil_of_right_ne_nil lead (List.cons_ne_nil v rest))
  | cons t texts ih =>
      obtain ⟨lead, rest, names, other⟩ := first
      rw [List.flatMap_cons] at names
      -- The name stands in this text or in one behind it.
      have split : (∃ more, references t = lead ++ v :: more) ∨
          ∃ front, lead = references t ++ front ∧ texts.flatMap references = front ++ v :: rest := by
        rcases List.append_eq_append_iff.1 names with ⟨front, rfl, behind⟩ | ⟨front, here, behind⟩
        · exact .inr ⟨front, rfl, behind⟩
        · cases front with
          | nil => exact .inr ⟨[], by rw [here, List.append_nil, List.append_nil], behind.symm⟩
          | cons u more =>
              obtain ⟨rfl, -⟩ := List.cons.inj behind
              exact .inl ⟨more, here⟩
      rcases split with ⟨more, here⟩ | ⟨front, rfl, behind⟩
      · obtain ⟨a, b, rfl, apart, cut⟩ := references_split here
        exact ⟨[], _, texts, a, b, rfl, rfl, apart, List.forall_mem_nil _, absent (cut ▸ other)⟩
      · rw [List.append_assoc, List.mem_append, not_or] at other
        obtain ⟨earlier, u, later, a, b, rfl, parts, apart, none, last⟩ :=
          ih ⟨front, rest, behind, other.2⟩
        exact ⟨t :: earlier, u, later, a, b, rfl, parts, apart,
          List.forall_mem_cons.2 ⟨absent other.1, none⟩, last⟩

/-- Whether a name stands in a type that a definition is written with: in that of a parameter, in the
one it returns, in one that it extends or implements, or in that of a member. -/
inductive RefersTo (d : Definition) (name : Text) : Prop
  | parameter {p : Parameter} (own : p ∈ d.parameters) (stands : StandsIn name p.type)
  | returned {t : Text} (known : d.returnType = some t) (stands : StandsIn name t)
  | extended {t : Text} (base : t ∈ d.extends_) (stands : StandsIn name t)
  | implemented {t : Text} (base : t ∈ d.implements_) (stands : StandsIn name t)
  | member {m : Member} (own : m ∈ d.members) (stands : StandsIn name m.type)

theorem exists_standsIn_iff {d : Definition} {name : Text} :
    (∃ t ∈ referringTexts d, StandsIn name t) ↔ RefersTo d name := by
  simp only [referringTexts, List.mem_append, List.mem_map, Option.mem_toList]
  constructor
  · rintro ⟨t, (((⟨p, own, rfl⟩ | known) | base) | base) | ⟨m, own, rfl⟩, stands⟩
    · exact .parameter own stands
    · exact .returned known stands
    · exact .extended base stands
    · exact .implemented base stands
    · exact .member own stands
  · intro refers
    cases refers with
    | parameter own stands => exact ⟨_, .inl (.inl (.inl (.inl ⟨_, own, rfl⟩))), stands⟩
    | returned known stands => exact ⟨_, .inl (.inl (.inl (.inr known))), stands⟩
    | extended base stands => exact ⟨_, .inl (.inl (.inr base)), stands⟩
    | implemented base stands => exact ⟨_, .inl (.inr base), stands⟩
    | member own stands => exact ⟨_, .inr ⟨_, own, rfl⟩, stands⟩

/-- Whether the name of a type parameter ends before a text. -/
def EndsName (rest : Text) : Prop := ∀ c ∈ rest.head?, isBlank c = true ∨ c = '='

/-- Whether a text begins with a name that ends there. -/
def BeginsWith (name text : Text) : Prop := ∃ rest, text = name ++ rest ∧ EndsName rest

section
variable {t name : Text}

theorem IsTypeName.continues (isName : IsTypeName name) :
    ∀ c ∈ name, (!(isBlank c || c == '=')) = true := by
  intro c member
  have inside := isName.isWordChar c member
  rw [Bool.not_eq_true', Bool.or_eq_false_iff]
  constructor
  · rw [Bool.eq_false_iff]
    intro blank
    rw [Text.not_isWordChar_of_isBlank blank] at inside
    cases inside
  · rw [beq_eq_false_iff_ne]
    rintro rfl
    exact absurd inside (by decide)

theorem genericName_eq_iff (isName : IsTypeName name) :
    genericName t = name ↔ BeginsWith name t := by
  constructor
  · rintro rfl
    refine ⟨_, List.takeWhile_append_dropWhile.symm, fun c first => ?_⟩
    have stop := Text.head?_dropWhile (fun c => !(isBlank c || c == '=')) t c first
    rwa [Bool.not_eq_false', Bool.or_eq_true, beq_iff_eq] at stop
  · rintro ⟨rest, rfl, ends⟩
    refine Text.takeWhile_run isName.continues fun c first => ?_
    rcases ends c first with blank | rfl
    · rw [blank]
      rfl
    · rw [beq_self_eq_true, Bool.or_true]
      rfl

end

section
variable {file : File} {d : Definition}

def relatedBy (file : File) (name : Text) : Option RelatedType :=
  (file.lookup? name).map fun found => ⟨found.name, found.signature⟩

/-- What is known after some names: those seen are the names that count, in the order in which they
came first, and those related are what is found for them. -/
structure Surveyed (file : File) (d : Definition) (names : List Text) (s : Survey) : Prop where
  seen : ∀ name, name ∈ s.seen ↔ name ∈ names ∧ isNoReference d name = false
  ordered : s.seen.Pairwise (FirstBefore names)
  related : s.related = s.seen.filterMap (relatedBy file)

theorem Surveyed.visit {names : List Text} {s : Survey} (surveyed : Surveyed file d names s)
    (name : Text) : Surveyed file d (names ++ [name]) (s.visit file d name) := by
  have kept : s.seen.Pairwise (FirstBefore (names ++ [name])) :=
    surveyed.ordered.imp fun first => first.append [name]
  unfold Survey.visit
  split
  · next skipped =>
      refine ⟨fun other => ?_, kept, surveyed.related⟩
      rw [surveyed.seen, List.mem_append, List.mem_singleton, or_and_right]
      refine (or_iff_left_of_imp ?_).symm
      rintro ⟨rfl, counts⟩
      rw [counts, Bool.false_or, List.contains_iff_mem] at skipped
      exact (surveyed.seen other).1 skipped
  · next new =>
      rw [Bool.or_eq_true, not_or, Bool.not_eq_true, List.contains_iff_mem] at new
      obtain ⟨counts, unseen⟩ := new
      have absent : name ∉ names := fun listed => unseen ((surveyed.seen name).2 ⟨listed, counts⟩)
      refine ⟨fun other => ?_, ?_, ?_⟩
      · rw [List.mem_append, surveyed.seen, List.mem_append, List.mem_singleton, or_and_right]
        refine or_congr_right ⟨?_, And.left⟩
        rintro rfl
        exact ⟨rfl, counts⟩
      · refine List.pairwise_append.2 ⟨kept, List.pairwise_singleton _ name, fun v listed w last => ?_⟩
        obtain rfl := List.mem_singleton.1 last
        exact (firstBefore_of_not_mem ((surveyed.seen v).1 listed).1 absent).append [w]
      · have single : [name].filterMap (relatedBy file) = (relatedBy file name).toList := by
          rw [List.filterMap_cons]
          cases relatedBy file name <;> rfl
        rw [surveyed.related, List.filterMap_append, single]
        rfl

theorem Surveyed.foldl {done : List Text} {s : Survey} (surveyed : Surveyed file d done s)
    (names : List Text) :
    Surveyed file d (done ++ names) (names.foldl (Survey.visit file d) s) := by
  induction names generalizing done s with
  | nil => rwa [List.append_nil]
  | cons name names ih =>
      have rest := ih (surveyed.visit name)
      rwa [List.append_assoc] at rest

/-- The names that a definition refers to, as often as it does. -/
def allReferences (d : Definition) : List Text := (referringTexts d).flatMap references

theorem exists_surveyed (file : File) (d : Definition) : ∃ s, Surveyed file d (allReferences d) s ∧
    relatedTypes file d = s.related := by
  have start : Surveyed file d [] ⟨[], []⟩ := ⟨fun name => by simp, .nil, rfl⟩
  exact ⟨_, start.foldl (allReferences d), rfl⟩

end

section
variable {file : File} {d : Definition} {name : Text}

theorem relatedBy_eq_some {related : RelatedType} (found : relatedBy file name = some related) :
    related.name = name ∧
      ∃ e, StandsFor name file.definitions e ∧ related.signature = e.signature := by
  obtain ⟨e, known, rfl⟩ := Option.map_eq_some_iff.1 found
  have stands := standsFor_of_lookup? known
  exact ⟨stands.declares.2, e, stands, rfl⟩

theorem mem_map_name_iff {seen : List Text} :
    name ∈ (seen.filterMap (relatedBy file)).map RelatedType.name ↔
      name ∈ seen ∧ ∃ e ∈ file.definitions, e.name = name := by
  constructor
  · intro member
    obtain ⟨related, listed, rfl⟩ := List.mem_map.1 member
    obtain ⟨other, inside, found⟩ := List.mem_filterMap.1 listed
    obtain ⟨rfl, e, stands, -⟩ := relatedBy_eq_some found
    exact ⟨inside, e, stands.declares⟩
  · rintro ⟨inside, e, declared, rfl⟩
    have known : file.lookup? e.name ≠ none := fun none => lookup?_eq_none_iff.1 none e declared rfl
    obtain ⟨found, known⟩ := Option.ne_none_iff_exists'.1 known
    have related : relatedBy file e.name = some ⟨found.name, found.signature⟩ := by
      rw [relatedBy, known]
      rfl
    exact List.mem_map.2 ⟨_, List.mem_filterMap.2 ⟨e.name, inside, related⟩,
      (standsFor_of_lookup? known).declares.2⟩

theorem isNoReference_eq_false_iff : isNoReference d name = false ↔
    name ≠ d.name ∧ name ∉ builtinTypes ∧ ∀ g ∈ d.generics, genericName g ≠ name := by
  simp [isNoReference, and_assoc]

theorem mem_allReferences_iff : name ∈ allReferences d ↔ IsTypeName name ∧ RefersTo d name := by
  rw [allReferences, List.mem_flatMap, ← exists_standsIn_iff]
  simp only [mem_references_iff]
  constructor
  · rintro ⟨t, listed, isName, stands⟩
    exact ⟨isName, t, listed, stands⟩
  · rintro ⟨isName, t, listed, stands⟩
    exact ⟨t, listed, isName, stands⟩

end

/-- The types that a definition refers to: those names of types that stand in the types of its
parameters, the one it returns, those it extends and implements and those of its members and that
count, if they are declared, each once in the order of their first places, with the signature of
what the name stands for. -/
theorem relatedTypes_answers (file : File) (d : Definition) :
    (∀ name, name ∈ (relatedTypes file d).map RelatedType.name ↔
      (IsTypeName name ∧ RefersTo d name) ∧
      (name ≠ d.name ∧ name ∉ builtinTypes ∧ ∀ g ∈ d.generics, ¬ BeginsWith name g) ∧
      ∃ e ∈ file.definitions, e.name = name) ∧
    ((relatedTypes file d).map RelatedType.name).Nodup ∧
    ((relatedTypes file d).map RelatedType.name).Pairwise
      (ComesBefore (d.parameters.map Parameter.type ++ d.returnType.toList ++ d.extends_ ++
        d.implements_ ++ d.members.map Member.type)) ∧
    ∀ related ∈ relatedTypes file d, ∃ e, StandsFor related.name file.definitions e ∧
      related.signature = e.signature := by
  obtain ⟨s, surveyed, types⟩ := exists_surveyed file d
  rw [types, surveyed.related]
  have ordered : ((s.seen.filterMap (relatedBy file)).map RelatedType.name).Pairwise
      (ComesBefore (referringTexts d)) := by
    rw [List.pairwise_map, List.pairwise_filterMap]
    refine surveyed.ordered.imp_of_mem fun {v w} _ listed first u found x known => ?_
    rw [(relatedBy_eq_some found).1, (relatedBy_eq_some known).1]
    have isName := (mem_allReferences_iff.1 ((surveyed.seen w).1 listed).1).1
    exact comesBefore_of_firstBefore isName first
  refine ⟨fun name => ?_, ordered.imp ComesBefore.ne, ordered, fun related listed => ?_⟩
  · rw [mem_map_name_iff, surveyed.seen, mem_allReferences_iff, isNoReference_eq_false_iff, and_assoc]
    refine and_congr_right fun refers => and_congr_left' (and_congr_right' (and_congr_right' ?_))
    exact forall₂_congr fun g _ => not_congr (genericName_eq_iff refers.1)
  · obtain ⟨name, -, found⟩ := List.mem_filterMap.1 listed
    obtain ⟨rfl, stands⟩ := relatedBy_eq_some found
    exact stands

/-- A function and a class that refer to types in all places where they can, some of them built in,
their own, not declared or reached through another one only. -/
def sales : File := File.ofSource .plain
  "declare function pay<T>(a: Shop<T>, b: Date): Till;
declare class Sale extends Base implements Shown \x7b a: Line; b: Sale | Till; \x7d
interface T \x7b\x7d
interface Shop<T> \x7b a: Line; \x7d
type Till = 0;
interface Base \x7b\x7d
interface Shown \x7b\x7d
function Line(): 0;".toList

theorem relatedTypes_answers_sales :
    (sales.definitions.take 2).map (fun d => (relatedTypes sales d).map RelatedType.name) =
      [["Shop".toList, "Till".toList],
        ["Base".toList, "Shown".toList, "Line".toList, "Till".toList]] ∧
    ∀ d ∈ sales.definitions.take 2, ∀ related ∈ relatedTypes sales d,
      (IsTypeName related.name ∧ RefersTo d related.name) ∧
      (∀ g ∈ d.generics, ¬ BeginsWith related.name g) ∧
      ∃ e, StandsFor related.name sales.definitions e ∧ related.signature = e.signature := by
  refine ⟨by decide +kernel, fun d _ related listed => ?_⟩
  obtain ⟨names, -, -, signatures⟩ := relatedTypes_answers sales d
  obtain ⟨refers, ⟨-, -, other⟩, -⟩ := (names related.name).1 (List.mem_map_of_mem listed)
  exact ⟨refers, other, signatures related listed⟩

end ApiReference.Declaration
