import ApiReference.Proofs.Catalog.Keys

/-!
# Overriding the built-in catalog

Whatever entries a catalog is extended by, the last one with a key is the one that the key stands for,
and an entry that is new stands where its key came up first. Main statement: `extend_overrides`.
-/

namespace ApiReference.Catalog

theorem find?_put (entry : Framework) (key : Text) (fs : List Framework) :
    (put entry fs).find? (fun f => f.key == key) =
      if entry.key = key then some entry else fs.find? fun f => f.key == key := by
  induction fs with
  | nil => by_cases named : entry.key = key <;> simp [put, named]
  | cons f fs ih =>
      by_cases same : f.key = entry.key
      · by_cases named : entry.key = key <;> simp [put, same, named]
      · rw [put, if_neg same, List.find?_cons, ih, List.find?_cons]
        cases found : f.key == key with
        | true =>
            rw [beq_iff_eq.1 found] at same
            exact (if_neg (Ne.symm same)).symm
        | false => rfl

theorem find?_foldl_put (key : Text) (extra fs : List Framework) :
    (extra.foldl (fun entries entry => put entry entries) fs).find? (fun f => f.key == key) =
      (extra.filter fun f => f.key == key).getLast?.or (fs.find? fun f => f.key == key) := by
  induction extra generalizing fs with
  | nil => rfl
  | cons entry extra ih =>
      rw [List.foldl_cons, ih, find?_put, List.filter_cons]
      by_cases named : entry.key = key
      · rw [if_pos named, if_pos (beq_iff_eq.2 named), List.getLast?_cons]
        cases (extra.filter fun f => f.key == key).getLast? <;> rfl
      · rw [if_neg named, if_neg (mt beq_iff_eq.1 named)]

/-- Keys that are there keep their places, and new ones follow in the order in which they come up. -/
theorem map_key_foldl_put (extra fs : List Framework) :
    (extra.foldl (fun entries entry => put entry entries) fs).map Framework.key =
      fs.map Framework.key ++
        ((extra.map Framework.key).filter (· ∉ fs.map Framework.key)).eraseDups := by
  induction extra generalizing fs with
  | nil => simp
  | cons entry extra ih =>
      rw [List.foldl_cons, ih, map_key_put, List.map_cons]
      by_cases present : entry.key ∈ fs.map Framework.key
      · rw [if_pos present, List.filter_cons_of_neg (by simpa using present)]
      · have fresh (key : Text) : decide (key ∉ fs.map Framework.key ++ [entry.key]) =
            (!key == entry.key && decide (key ∉ fs.map Framework.key)) := by
          by_cases same : key = entry.key <;> simp [same]
        simp only [if_neg present, fresh]
        rw [List.filter_cons_of_pos (by simpa using present), List.eraseDups_cons, List.filter_filter,
          List.append_assoc, List.singleton_append]

theorem get?_extend (catalog : Catalog) (extra : List Framework) (name : Text) :
    (catalog.extend extra).get? name =
      ((extra.filter fun f => Text.lower f.key == Text.lower name).getLast?.map
        Framework.normalized).or (catalog.get? name) := by
  have entries := find?_foldl_put (Text.lower name) (extra.map Framework.normalized) catalog.entries
  rw [List.filter_map, List.getLast?_map] at entries
  exact entries

/-- However the built-in catalog is extended, its keys are distinct and in lower case: first the
built-in ones in their order, then the new ones in the order in which they come up. A name in any
letter case stands for the last of the entries given for it, with other names and patterns in lower
case and packages as they are written; for the built-in entry, if none is given. -/
theorem extend_overrides (extra : List Framework) :
    (builtin.extend extra).keys.Nodup ∧
    (builtin.extend extra).keys.map Text.lower = (builtin.extend extra).keys ∧
    (builtin.extend extra).keys = builtin.keys ++
      ((extra.map fun f => Text.lower f.key).filter (· ∉ builtin.keys)).eraseDups ∧
    ∀ name, (builtin.extend extra).get? name =
      match (extra.filter fun f => Text.lower f.key == Text.lower name).getLast? with
      | some f =>
        some ⟨Text.lower name, f.packages, f.aliases.map Text.lower, f.apiPatterns.map Text.lower⟩
      | none => builtin.get? name := by
  have keyed := keyed_extend extra
  refine ⟨keyed.nodup, ?_, ?_, fun name => ?_⟩
  · rw [keys, List.map_map]
    exact List.map_congr_left keyed.lower
  · rw [keys, extend, map_key_foldl_put, ofList, List.map_map]
    rfl
  · rw [get?_extend]
    cases last : (extra.filter fun f => Text.lower f.key == Text.lower name).getLast? with
    | none => rfl
    | some f =>
        have named := List.of_mem_filter (List.mem_of_getLast? last)
        rw [Option.map_some, Option.some_or, ← beq_iff_eq.1 named]
        rfl

example : let catalog := builtin.extend [entry "React" ["@types/react"] [] [],
      entry "Effect" ["effect"] ["Effect-TS"] [], entry "REACT" ["preact"] [] []]
    catalog.keys = builtin.keys ++ ["effect".toList] ∧
      catalog.get? "rEACT".toList = some (entry "react" ["preact"] [] []) := by
  decide +kernel

end ApiReference.Catalog
