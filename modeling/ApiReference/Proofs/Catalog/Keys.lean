import ApiReference.Catalog.Builtin
import ApiReference.Proofs.Text.Lowercase
import Mathlib.Data.List.Perm.Basic

/-!
# Keys of a catalog

The keys of every catalog are in lower case, and however the built-in one is extended, no two entries
have the same, so a key in any letter case stands for one entry. Main statements: `Built.keyed`,
`keyed_extend`, `Keyed.get?_of_mem`.
-/

namespace ApiReference.Catalog

/-- Keys are in lower case and stand for one entry each. -/
structure Keyed (catalog : Catalog) : Prop where
  nodup : catalog.keys.Nodup
  lower : ∀ f ∈ catalog.entries, Text.lower f.key = f.key

theorem map_key_put (entry : Framework) (fs : List Framework) :
    (put entry fs).map Framework.key =
      if entry.key ∈ fs.map Framework.key then fs.map Framework.key
      else fs.map Framework.key ++ [entry.key] := by
  induction fs with
  | nil => rfl
  | cons f fs ih =>
      by_cases same : f.key = entry.key
      · simp [put, same]
      · rw [put, if_neg same, List.map_cons, ih, List.map_cons]
        by_cases present : entry.key ∈ fs.map Framework.key
        · rw [if_pos present, if_pos (List.mem_cons_of_mem _ present)]
        · rw [if_neg present, if_neg (by simpa [Ne.symm same] using present), List.cons_append]

theorem mem_put {entry f : Framework} {fs : List Framework} (h : f ∈ put entry fs) :
    f = entry ∨ f ∈ fs := by
  induction fs with
  | nil => exact .inl (List.mem_singleton.mp h)
  | cons g fs ih =>
      rw [put] at h
      split at h
      · rcases List.mem_cons.mp h with new | old
        · exact .inl new
        · exact .inr (List.mem_cons_of_mem g old)
      · rcases List.mem_cons.mp h with rfl | behind
        · exact .inr List.mem_cons_self
        · exact (ih behind).imp id (List.mem_cons_of_mem g)

theorem Keyed.put {fs : List Framework} (h : Keyed ⟨fs⟩) (entry : Framework) :
    Keyed ⟨Catalog.put entry.normalized fs⟩ := by
  constructor
  · have distinct : (fs.map Framework.key).Nodup := h.nodup
    rw [keys, map_key_put]
    split
    · exact distinct
    · next absent =>
        have last := List.perm_append_singleton entry.normalized.key (fs.map Framework.key)
        exact last.nodup_iff.mpr (List.nodup_cons.mpr ⟨absent, distinct⟩)
  · intro f member
    rcases mem_put member with rfl | old
    · exact Text.lower_lower entry.key
    · exact h.lower f old

theorem Keyed.extend {catalog : Catalog} (h : catalog.Keyed) (extra : List Framework) :
    (catalog.extend extra).Keyed := by
  unfold Catalog.extend ofList
  rw [List.foldl_map]
  rcases catalog with ⟨entries⟩
  induction extra generalizing entries with
  | nil => exact h
  | cons entry extra ih => exact ih _ (h.put entry)

/-- A catalog as it can come about: from entries, extended by others. -/
inductive Built : Catalog → Prop where
  | ofList (entries : List Framework) : Built (ofList entries)
  | extend {catalog : Catalog} (built : Built catalog) (extra : List Framework) :
      Built (catalog.extend extra)

theorem key_ofList (entries : List Framework) :
    ∀ f ∈ (ofList entries).entries, Text.lower f.key = f.key := by
  intro f member
  obtain ⟨entry, -, rfl⟩ := List.mem_map.mp member
  exact Text.lower_lower entry.key

theorem mem_foldl_put {f : Framework} {extra fs : List Framework}
    (member : f ∈ extra.foldl (fun entries entry => put entry entries) fs) :
    f ∈ extra ∨ f ∈ fs := by
  induction extra generalizing fs with
  | nil => exact .inr member
  | cons entry extra ih =>
      rcases ih member with new | old
      · exact .inl (List.mem_cons_of_mem entry new)
      · rcases mem_put old with rfl | old
        · exact .inl List.mem_cons_self
        · exact .inr old

/-- Keys are in lower case, and so distinct keys are distinct in any letter case. -/
theorem Built.keyed {catalog : Catalog} (built : catalog.Built) (distinct : catalog.keys.Nodup) :
    catalog.Keyed := by
  refine ⟨distinct, ?_⟩
  clear distinct
  induction built with
  | ofList entries => exact key_ofList entries
  | extend _ extra ih =>
      intro f member
      rcases mem_foldl_put member with new | old
      · exact key_ofList extra f new
      · exact ih f old

theorem keyed_builtin : builtin.Keyed := by
  constructor
  · decide +kernel
  · exact key_ofList _

/-- The built-in catalog stays in order whatever is configured. -/
theorem keyed_extend (extra : List Framework) : (builtin.extend extra).Keyed :=
  keyed_builtin.extend extra

variable {catalog : Catalog}

@[simp] theorem get?_lower (catalog : Catalog) (key : Text) :
    catalog.get? (Text.lower key) = catalog.get? key := by
  simp only [get?, Text.lower_lower]

@[simp] theorem primaryPackage?_lower (catalog : Catalog) (key : Text) :
    catalog.primaryPackage? (Text.lower key) = catalog.primaryPackage? key := by
  simp only [primaryPackage?, get?_lower]

/-- No earlier entry has the key of a later one. -/
theorem Keyed.key_ne (h : catalog.Keyed) {before after : List Framework} {f : Framework}
    (split : catalog.entries = before ++ f :: after) : ∀ g ∈ before, g.key ≠ f.key := by
  have distinct := h.nodup
  rw [keys, split, List.map_append, List.map_cons, List.nodup_append] at distinct
  intro g within
  exact distinct.2.2 g.key (List.mem_map_of_mem within) f.key List.mem_cons_self

/-- A key in any letter case stands for its entry. -/
theorem Keyed.get?_of_mem (h : catalog.Keyed) {f : Framework} (member : f ∈ catalog.entries)
    {name : Text} (named : Text.lower name = f.key) : catalog.get? name = some f := by
  obtain ⟨before, after, split⟩ := List.append_of_mem member
  have earlier : ∀ g ∈ before, ¬ (g.key == f.key) = true := by
    intro g within same
    exact h.key_ne split g within (beq_iff_eq.mp same)
  have own : (f.key == f.key) = true := beq_self_eq_true f.key
  rw [get?, named, split, List.find?_append, List.find?_eq_none.mpr earlier, Option.none_or,
    List.find?_cons, own]

/-- What is no key in lower case stands for no entry. -/
theorem get?_eq_none {name : Text} (unnamed : ∀ f ∈ catalog.entries, f.key ≠ Text.lower name) :
    catalog.get? name = none := by
  rw [get?, List.find?_eq_none]
  intro f member same
  exact unnamed f member (beq_iff_eq.mp same)

end ApiReference.Catalog
