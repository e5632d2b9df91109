import ApiReference.Proofs.Toml.Reading
import ApiReference.Settings.Layers
import Mathlib.Data.List.Perm.Basic

/-!
# Tables laid over each other

What a look-up finds after a value has been put into a table, after two tables have been merged and
after a layer has been laid over a table. Main statements: `get?_mergeEntries`, `get?_overlay`.
-/

namespace ApiReference.Settings
open ApiReference.Toml (Value Table)

section
variable {key other : Text} {v : Value} {t : Table}

theorem get?_cons (e : Text × Value) (t : Table) (key : Text) :
    Table.get? (e :: t) key = if e.1 = key then some e.2 else Table.get? t key := by
  unfold Table.get?
  rw [List.find?_cons]
  by_cases same : e.1 = key
  · simp only [same, beq_self_eq_true, if_true, Option.map_some]
  · simp only [beq_false_of_ne same, if_neg same]

theorem get?_eq_none (absent : key ∉ t.map Prod.fst) : Table.get? t key = none := by
  induction t with
  | nil => rfl
  | cons e t ih =>
      rw [List.map_cons, List.mem_cons, not_or] at absent
      rw [get?_cons, if_neg (Ne.symm absent.1), ih absent.2]

theorem mem_of_get? (found : Table.get? t key = some v) : (key, v) ∈ t := by
  induction t with
  | nil => cases found
  | cons e t ih =>
      rw [get?_cons] at found
      split at found
      · next same =>
          cases found
          rw [← same]
          exact List.mem_cons_self
      · exact List.mem_cons_of_mem _ (ih found)

theorem get?_of_mem (distinct : (t.map Prod.fst).Nodup) (member : (key, v) ∈ t) :
    Table.get? t key = some v := by
  induction t with
  | nil => cases member
  | cons e t ih =>
      obtain ⟨apart, distinct⟩ := List.nodup_cons.1 distinct
      rw [get?_cons]
      rcases List.mem_cons.1 member with rfl | member
      · rw [if_pos rfl]
      · have differ : e.1 ≠ key := by
          rintro rfl
          exact apart (List.mem_map.2 ⟨_, member, rfl⟩)
        rw [if_neg differ, ih distinct member]

/-- The order of entries does not matter where keys are distinct. -/
theorem get?_perm {t u : Table} (same : t.Perm u) (distinct : (u.map Prod.fst).Nodup) :
    Table.get? t key = Table.get? u key := by
  have distinct' : (t.map Prod.fst).Nodup := (same.map Prod.fst).nodup_iff.2 distinct
  cases found : Table.get? u key with
  | some v => exact get?_of_mem distinct' (same.mem_iff.2 (mem_of_get? found))
  | none =>
      cases found' : Table.get? t key with
      | none => rfl
      | some v =>
          have there := get?_of_mem distinct (same.mem_iff.1 (mem_of_get? found'))
          rw [found] at there
          cases there

theorem get?_map (f : Value → Value) (t : Table) (key : Text) :
    Table.get? (t.map fun e => (e.1, f e.2)) key = (Table.get? t key).map f := by
  induction t with
  | nil => rfl
  | cons e t ih =>
      rw [List.map_cons, get?_cons, get?_cons, ih]
      split <;> rfl

theorem get?_put (key other : Text) (v : Value) (t : Table) :
    Table.get? (put key v t) other = if key = other then some v else Table.get? t other := by
  induction t with
  | nil => rw [put, get?_cons]
  | cons e t ih =>
      obtain ⟨k, w⟩ := e
      rw [put]
      split
      · next same =>
          subst same
          rw [get?_cons, get?_cons]
          split <;> rfl
      · next differ =>
          rw [get?_cons, get?_cons, ih]
          split
          · next here =>
              subst here
              rw [if_neg (Ne.symm differ)]
          · rfl

theorem put_new (absent : key ∉ t.map Prod.fst) (v : Value) : put key v t = t ++ [(key, v)] := by
  induction t with
  | nil => rfl
  | cons e t ih =>
      rw [List.map_cons, List.mem_cons, not_or] at absent
      rw [put, if_neg (Ne.symm absent.1), ih absent.2, List.cons_append]

end

theorem perm_insertByKey (e : Text × Value) (t : Table) : (insertByKey e t).Perm (e :: t) := by
  induction t with
  | nil => exact .refl _
  | cons d t ih =>
      rw [insertByKey]
      split
      · exact (ih.cons d).trans (.swap e d t)
      · exact .refl _

theorem perm_sorted (t : Table) : (t.foldr insertByKey []).Perm t := by
  induction t with
  | nil => exact .refl _
  | cons e t ih => exact (perm_insertByKey e _).trans (ih.cons e)

theorem foldl_put_lower {t done : Table} (small : ∀ e ∈ t, Text.lower e.1 = e.1)
    (distinct : ((done ++ t).map Prod.fst).Nodup) :
    t.foldl (fun t (key, v) => put (Text.lower key) v t) done = done ++ t := by
  induction t generalizing done with
  | nil => exact (List.append_nil done).symm
  | cons e t ih =>
      obtain ⟨key, v⟩ := e
      obtain ⟨first, rest⟩ := List.forall_mem_cons.1 small
      have absent : key ∉ done.map Prod.fst := by
        rw [List.map_append, List.map_cons] at distinct
        intro member
        exact (List.nodup_append.1 distinct).2.2 key member key List.mem_cons_self rfl
      have next : done ++ [(key, v)] ++ t = done ++ (key, v) :: t := List.append_assoc ..
      have step : put (Text.lower key) v done = done ++ [(key, v)] := by
        rw [first, put_new absent]
      simp only [List.foldl_cons, step]
      rw [ih rest (by rw [next]; exact distinct), next]

/-- Keys that are distinct and in lower case stay as they are, but for their order. -/
theorem perm_lowerKeys {t : Table} (small : ∀ e ∈ t, Text.lower e.1 = e.1)
    (distinct : (t.map Prod.fst).Nodup) : (lowerKeys t).Perm t := by
  have sorted := perm_sorted t
  rw [lowerKeys, foldl_put_lower fun e member => small e (sorted.mem_iff.1 member)]
  · exact sorted
  · exact (sorted.map Prod.fst).nodup_iff.2 distinct

theorem layeredEntries_eq_map (t : Table) : layeredEntries t = t.map fun e => (e.1, layered e.2) := by
  induction t with
  | nil => rfl
  | cons e t ih => rw [layeredEntries, ih, List.map_cons]

theorem layeredItems_eq_map (items : List Value) : layeredItems items = items.map layered := by
  induction items with
  | nil => rfl
  | cons v items ih => rw [layeredItems, ih, List.map_cons]

/-- Keys of a table that a layer keeps as they are. -/
structure Plain (keys : List Text) : Prop where
  distinct : keys.Nodup
  small : ∀ key ∈ keys, Text.lower key = key

section
variable {t : Table}

theorem keys_layeredEntries (t : Table) : (layeredEntries t).map Prod.fst = t.map Prod.fst := by
  rw [layeredEntries_eq_map, List.map_map]
  rfl

theorem perm_fileLayer (plain : Plain (t.map Prod.fst)) : (fileLayer t).Perm (layeredEntries t) := by
  refine perm_lowerKeys (fun e member => plain.small e.1 ?_) ?_
  · rw [← keys_layeredEntries]
    exact List.mem_map_of_mem member
  · rw [keys_layeredEntries]
    exact plain.distinct

theorem nodup_fileLayer (plain : Plain (t.map Prod.fst)) : ((fileLayer t).map Prod.fst).Nodup := by
  rw [((perm_fileLayer plain).map Prod.fst).nodup_iff, keys_layeredEntries]
  exact plain.distinct

theorem get?_fileLayer (plain : Plain (t.map Prod.fst)) (key : Text) :
    Table.get? (fileLayer t) key = (Table.get? t key).map layered := by
  have distinct : ((layeredEntries t).map Prod.fst).Nodup := by
    rw [keys_layeredEntries]
    exact plain.distinct
  rw [get?_perm (perm_fileLayer plain) distinct, layeredEntries_eq_map, get?_map]

end

/-- What a look-up finds once entries have been merged into a value. -/
theorem get?_mergeEntries {entries : Table} (distinct : (entries.map Prod.fst).Nodup)
    (target : Value) (key : Text) :
    Table.get? (entriesOf (mergeEntries target entries)) key =
      match Table.get? entries key with
      | some v => some (merge (Table.get? (entriesOf target) key) v)
      | none => Table.get? (entriesOf target) key := by
  induction entries generalizing target with
  | nil => rfl
  | cons e entries ih =>
      obtain ⟨apart, distinct⟩ := List.nodup_cons.1 distinct
      rw [mergeEntries, ih distinct, get?_cons]
      simp only [entriesOf, get?_put]
      by_cases here : e.1 = key
      · subst here
        simp only [get?_eq_none apart, if_true]
      · simp only [here, if_false]

theorem exists_mergeEntries_table (t entries : Table) :
    ∃ merged, mergeEntries (.table t) entries = .table merged := by
  induction entries generalizing t with
  | nil => exact ⟨t, rfl⟩
  | cons e entries ih => exact ih _

theorem merge_of_not_table {v : Value} (other : ∀ entries, v ≠ .table entries)
    (existing : Option Value) : merge existing v = v := by
  cases v with
  | table entries => exact absurd rfl (other entries)
  | _ => rfl

/-- A table laid over a table, or over nothing, is a table of both. -/
theorem merge_table {entries : Table} (distinct : (entries.map Prod.fst).Nodup)
    (t : Table) : ∃ merged, merge (some (.table t)) (.table entries) = .table merged ∧
      ∀ key, Table.get? merged key =
        match Table.get? entries key with
        | some v => some (merge (Table.get? t key) v)
        | none => Table.get? t key := by
  obtain ⟨merged, made⟩ := exists_mergeEntries_table t entries
  refine ⟨merged, made, fun key => ?_⟩
  have found := get?_mergeEntries distinct (.table t) key
  rwa [made] at found

theorem overlay_nil (t : Table) : overlay [] t = t := rfl

/-- A layer whose names are keys of their own is merged like a table. -/
theorem overlay_eq {layer : Table} (single : ∀ e ∈ layer, pathOf e.1 = [e.1]) (t : Table) :
    .table (overlay layer t) = mergeEntries (.table t) layer := by
  induction layer generalizing t with
  | nil => rfl
  | cons e layer ih =>
      obtain ⟨first, rest⟩ := List.forall_mem_cons.1 single
      have step : overlay (e :: layer) t = overlay layer (setAt (pathOf e.1) e.2 t) := rfl
      rw [step, ih rest, first, mergeEntries]
      rfl

theorem get?_overlay {layer : Table} (single : ∀ e ∈ layer, pathOf e.1 = [e.1])
    (distinct : (layer.map Prod.fst).Nodup) (t : Table) (key : Text) :
    Table.get? (overlay layer t) key =
      match Table.get? layer key with
      | some v => some (merge (Table.get? t key) v)
      | none => Table.get? t key := by
  have found := get?_mergeEntries distinct (.table t) key
  rwa [← overlay_eq single] at found

end ApiReference.Settings
