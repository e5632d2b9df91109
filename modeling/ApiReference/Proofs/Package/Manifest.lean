import ApiReference.Package.Manifest

/-!
# Which file a manifest names

A manifest has several places for its main declaration file. The first place with a value decides
alone, so a value that names no file hides every later one that does; apart from that the file is
the first that is named. Main statement: `typesPath?_first`.
-/

namespace ApiReference.Package
open ApiReference.Json (Value)

/-- The places for the main declaration file in order of precedence, by the keys that lead there. -/
def places : List (List String) :=
  [["types"], ["typings"], ["exports", ".", "types"], ["exports", ".", "import", "types"],
    ["exports", ".", "require", "types"]]

def valueAt? (v : Value) (place : List String) : Option Value := place.foldlM child? v

/-- The path that a value names: a string, without the dots before slashes at its beginning, if
anything is left. -/
def path? (v : Value) : Option Text := do
  let path := Text.stripStartAll "./".toList (← v.asText?)
  if path.isEmpty then none else some path

def pathAt? (manifest : Value) (place : List String) : Option Text :=
  (valueAt? manifest place).bind path?

def firstPath? (manifest : Value) : Option Text := places.findSome? (pathAt? manifest)

/-- Whether the first value there is names no path, though a later one does. -/
def Hides (manifest : Value) : Prop :=
  ∃ before place after v, places = before ++ place :: after ∧
    (∀ p ∈ before, valueAt? manifest p = none) ∧ valueAt? manifest place = some v ∧
    path? v = none ∧ ∃ p ∈ after, pathAt? manifest p ≠ none

theorem valueAt?_cons (v : Value) (key : String) (place : List String) :
    valueAt? v (key :: place) = (child? v key).bind (valueAt? · place) := rfl

theorem valueAt?_singleton (v : Value) (key : String) : valueAt? v [key] = child? v key :=
  Option.bind_fun_some _

theorem exportedTypes?_eq (manifest : Value) : exportedTypes? manifest =
    (valueAt? manifest ["exports", ".", "types"] <|>
      valueAt? manifest ["exports", ".", "import", "types"] <|>
      valueAt? manifest ["exports", ".", "require", "types"]) := by
  have named : exportedTypes? manifest =
      (child? manifest "exports").bind fun exported => (child? exported ".").bind fun root =>
        child? root "types" <|> ((child? root "import").bind fun v => child? v "types") <|>
          (child? root "require").bind fun v => child? v "types" := rfl
  simp only [named, valueAt?_cons _ "exports"]
  cases child? manifest "exports" with
  | none => rfl
  | some exported =>
      simp only [Option.bind_some, valueAt?_cons _ "."]
      cases child? exported "." with
      | none => rfl
      | some root =>
          simp only [Option.bind_some, valueAt?_cons root, valueAt?_singleton]

/-- The first place with a value decides. -/
theorem typesPath?_eq (manifest : Value) :
    typesPath? manifest = (places.findSome? (valueAt? manifest)).bind path? := by
  have named : typesPath? manifest = (child? manifest "types" <|> child? manifest "typings" <|>
      exportedTypes? manifest).bind path? := rfl
  have cons (place : List String) (more : List (List String)) :
      (place :: more).findSome? (valueAt? manifest) =
        (valueAt? manifest place <|> more.findSome? (valueAt? manifest)) := by
    rw [List.findSome?_cons]
    cases valueAt? manifest place <;> rfl
  simp only [named, exportedTypes?_eq, places, cons, List.findSome?_nil, valueAt?_singleton,
    Option.orElse_eq_orElse, Option.orElse_eq_or, Option.or_none]

/-- Where the first value is at some place, a path is there or at a later one. -/
theorem firstPath?_of_split {manifest v : Value} {before after : List (List String)}
    {place : List String} (split : places = before ++ place :: after)
    (earlier : ∀ p ∈ before, valueAt? manifest p = none)
    (here : valueAt? manifest place = some v) :
    firstPath? manifest = (path? v).or (after.findSome? (pathAt? manifest)) := by
  have skipped : before.findSome? (pathAt? manifest) = none := by
    refine List.findSome?_eq_none_iff.2 fun p listed => ?_
    rw [pathAt?, earlier p listed]
    rfl
  rw [firstPath?, split, List.findSome?_append, skipped, Option.none_or, List.findSome?_cons,
    pathAt?, here, Option.bind_some]
  cases path? v <;> rfl

theorem hides_iff {manifest : Value} :
    Hides manifest ↔ typesPath? manifest = none ∧ firstPath? manifest ≠ none := by
  rw [typesPath?_eq]
  constructor
  · rintro ⟨before, place, after, v, split, earlier, here, unnamed, p, listed, path⟩
    have first : places.findSome? (valueAt? manifest) = some v :=
      List.findSome?_eq_some_iff.2 ⟨before, place, after, split, here, earlier⟩
    rw [first, firstPath?_of_split split earlier here, Option.bind_some, unnamed, Option.none_or]
    exact ⟨rfl, fun nothing => path (List.findSome?_eq_none_iff.1 nothing p listed)⟩
  · rintro ⟨nothing, some⟩
    cases first : places.findSome? (valueAt? manifest) with
    | none =>
        refine absurd (List.findSome?_eq_none_iff.2 fun p listed => ?_) some
        rw [pathAt?, List.findSome?_eq_none_iff.1 first p listed]
        rfl
    | some v =>
        rw [first, Option.bind_some] at nothing
        obtain ⟨before, place, after, split, here, earlier⟩ := List.findSome?_eq_some_iff.1 first
        rw [firstPath?_of_split split earlier here, nothing, Option.none_or] at some
        obtain ⟨path, later⟩ := Option.ne_none_iff_exists'.1 some
        obtain ⟨p, listed, path⟩ := List.exists_of_findSome?_eq_some later
        exact ⟨before, place, after, v, split, earlier, here, nothing, p, listed,
          Option.ne_none_iff_exists'.2 ⟨_, path⟩⟩

/-- A file that is found is the first one that the manifest names, and the first one is found
exactly if it is not hidden; if it is hidden, nothing is found. -/
theorem typesPath?_first (manifest : Value) :
    (∀ path, typesPath? manifest = some path → firstPath? manifest = some path) ∧
    (typesPath? manifest = firstPath? manifest ↔ ¬ Hides manifest) ∧
    (Hides manifest → typesPath? manifest = none) := by
  have sound (path : Text) (found : typesPath? manifest = some path) :
      firstPath? manifest = some path := by
    rw [typesPath?_eq] at found
    obtain ⟨v, first, named⟩ := Option.bind_eq_some_iff.1 found
    obtain ⟨before, place, after, split, here, earlier⟩ := List.findSome?_eq_some_iff.1 first
    rw [firstPath?_of_split split earlier here, named, Option.some_or]
  refine ⟨sound, ⟨fun same hides => ?_, fun shown => ?_⟩, fun hides => (hides_iff.1 hides).1⟩
  · obtain ⟨nothing, some⟩ := hides_iff.1 hides
    exact some (same ▸ nothing)
  · cases found : typesPath? manifest with
    | some path => exact (sound path found).symm
    | none =>
        cases first : firstPath? manifest with
        | none => rfl
        | some path =>
            exact absurd (hides_iff.2 ⟨found, Option.ne_none_iff_exists'.2 ⟨path, first⟩⟩) shown

/-- The main file of a manifest is hidden by a value that is null, by an empty path, and by
conditions in place of a path. -/
theorem typesPath?_hidden :
    typesPath? (.ofFields [("types", .null), ("typings", .ofString "lib/zod.d.ts")]) = none ∧
    firstPath? (.ofFields [("types", .null), ("typings", .ofString "lib/zod.d.ts")]) =
      some "lib/zod.d.ts".toList ∧
    typesPath? (.ofFields [("types", .ofString "./"), ("typings", .ofString "lib/zod.d.ts")]) =
      none ∧
    firstPath? (.ofFields [("types", .ofString "./"), ("typings", .ofString "lib/zod.d.ts")]) =
      some "lib/zod.d.ts".toList ∧
    typesPath? (.ofFields [("exports", .ofFields [(".", .ofFields [
      ("types", .ofFields [("import", .ofString "./esm/index.d.mts")]),
      ("require", .ofFields [("types", .ofString "./cjs/index.d.ts")])])])]) = none ∧
    firstPath? (.ofFields [("exports", .ofFields [(".", .ofFields [
      ("types", .ofFields [("import", .ofString "./esm/index.d.mts")]),
      ("require", .ofFields [("types", .ofString "./cjs/index.d.ts")])])])]) =
      some "cjs/index.d.ts".toList := by
  decide +kernel

end ApiReference.Package
