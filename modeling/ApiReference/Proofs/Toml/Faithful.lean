import ApiReference.Proofs.Toml.Range
import ApiReference.Proofs.Toml.Tables

/-!
# Documents written and read back

What is asked of a reader and a writer of documents: a document of pairs, tables and rows is read as
what was written, and no integer that is read has more than 64 bits. Main statement: `faithful`.
-/

namespace ApiReference.Toml

/-- A document: pairs at its start, tables, and rows that share a header. -/
structure Outline where
  pairs : Table
  tables : List (Text × Table)
  header : Text
  rows : List Table

namespace Outline

def parts (o : Outline) : List Part :=
  (if o.pairs.isEmpty then [] else [.top o.pairs]) ++ o.tables.map (fun t => .table t.1 t.2) ++
    o.rows.map (.item o.header)

/-- What the document holds as one table. -/
def table (o : Outline) : Table :=
  o.pairs ++ o.tables.map (fun t => (t.1, .table t.2)) ++
    if o.rows.isEmpty then [] else [(o.header, .array (o.rows.map .table))]

/-- The keys that stand before the rows. -/
def keys (o : Outline) : List Text := o.pairs.map Prod.fst ++ o.tables.map Prod.fst

/-- No key stands twice in one place, and all values can be written. -/
structure IsSound (o : Outline) : Prop where
  keys : o.keys.Nodup
  header : o.rows ≠ [] → o.header ∉ o.keys
  tables : ∀ t ∈ o.tables, (t.2.map Prod.fst).Nodup
  rows : ∀ r ∈ o.rows, (r.map Prod.fst).Nodup
  writable : ∀ p ∈ o.parts, ∀ pair ∈ p.pairs, IsWritable depthLimit pair.2

end Outline

/-- What is asked of a reader and a writer. -/
structure Faithful (read? : Text → Option Table) (write : List Part → Text) : Prop where
  /-- What is written is read. -/
  read_write {o : Outline} (sound : o.IsSound) : read? (write o.parts) = some o.table
  /-- Integers that are read have 64 bits. -/
  inRange {t : Text} {table : Table} (found : read? t = some table) : ∀ e ∈ table, InRange e.2

theorem lacks_of_not_mem {entries : Entries} {key : Text} (absent : key ∉ entries.map Prod.fst) :
    Lacks entries key :=
  fun _ member same => absent (same ▸ List.mem_map_of_mem member)

theorem map_fst_valuesOf (pairs : Table) : (valuesOf pairs).map Prod.fst = pairs.map Prod.fst := by
  rw [valuesOf, List.map_map]
  rfl

theorem map_fst_entryOf (tables : List (Text × Table)) :
    (tables.map entryOf).map Prod.fst = tables.map Prod.fst := by
  rw [List.map_map]
  rfl

section
variable {o : Outline} (sound : o.IsSound)
include sound

theorem foldlM_outline_pairs :
    ((if o.pairs.isEmpty then [] else [Part.top o.pairs]).flatMap Part.statements).foldlM
      Progress.step ⟨[], []⟩ = some ⟨valuesOf o.pairs, []⟩ := by
  split
  · next none =>
      rw [List.isEmpty_iff.1 none]
      rfl
  · rw [List.flatMap_singleton]
    exact foldlM_pairs .top (fun _ _ => nofun) (List.nodup_append.1 sound.keys).1

theorem foldlM_outline_tables : ∃ last,
    ((o.tables.map fun t => Part.table t.1 t.2).flatMap Part.statements).foldlM
      Progress.step ⟨valuesOf o.pairs, []⟩ =
        some ⟨valuesOf o.pairs ++ o.tables.map entryOf, last⟩ := by
  obtain ⟨-, distinct, apart⟩ := List.nodup_append.1 sound.keys
  refine foldlM_tables (fun t member => lacks_of_not_mem fun inside => ?_) distinct sound.tables []
  rw [map_fst_valuesOf] at inside
  exact apart t.1 inside t.1 (List.mem_map_of_mem member) rfl

theorem foldlM_outline_rows (path : List Text) : ∃ p : Progress,
    ((o.rows.map (Part.item o.header)).flatMap Part.statements).foldlM Progress.step
      ⟨valuesOf o.pairs ++ o.tables.map entryOf, path⟩ = some p ∧ tableOf p.root = o.table := by
  have before : tableOf (valuesOf o.pairs ++ o.tables.map entryOf) =
      o.pairs ++ o.tables.map fun t => (t.1, .table t.2) := by
    rw [tableOf_append, tableOf_valuesOf, tableOf_entries]
  cases rows : o.rows with
  | nil =>
      refine ⟨_, rfl, ?_⟩
      rw [Outline.table, rows, before, List.isEmpty_nil, if_pos rfl, List.append_nil]
  | cons r rs =>
      have absent : o.header ∉ o.keys := sound.header (rows ▸ List.cons_ne_nil r rs)
      have lacks : Lacks (valuesOf o.pairs ++ o.tables.map entryOf) o.header := by
        refine lacks_of_not_mem ?_
        rwa [List.map_append, map_fst_valuesOf, map_fst_entryOf]
      refine ⟨_, foldlM_items lacks (rows ▸ sound.rows) path, ?_⟩
      rw [tableOf_append, before, Outline.table, rows, tableOf, tableOf, Node.toValue,
        tablesOf_valuesOf]
      rfl

theorem read?_write_outline : read? (write o.parts) = some o.table := by
  obtain ⟨path, tables⟩ := foldlM_outline_tables sound
  obtain ⟨p, rows, whole⟩ := foldlM_outline_rows sound path
  rw [read?_write sound.writable, Outline.parts, List.flatMap_append, List.flatMap_append,
    List.foldlM_append, List.foldlM_append, foldlM_outline_pairs sound, Option.bind_eq_bind,
    Option.bind_some, tables, Option.bind_some, rows, Option.map_some, whole]

end

theorem faithful : Faithful read? write := ⟨read?_write_outline, inRange_read?⟩

end ApiReference.Toml
