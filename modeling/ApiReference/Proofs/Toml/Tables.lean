import ApiReference.Proofs.Toml.Lines

/-!
# Tables built from parts

What the parts of a document add to the tables read before them: pairs go to the table that was
opened last. Main statements: `foldlM_tables`, `foldlM_items`.
-/

namespace ApiReference.Toml

/-- Whether no entry has a key. -/
def Lacks (entries : Entries) (key : Text) : Prop := ∀ e ∈ entries, e.1 ≠ key

section
variable {key : Text} {change : Option Node → Option Node} {entries before : Entries} {node : Node}

theorem adjust_lacking (lacks : Lacks entries key) :
    adjust key change entries = (change none).map fun node => entries ++ [(key, node)] := by
  induction entries with
  | nil => rfl
  | cons e entries ih =>
      obtain ⟨first, rest⟩ := List.forall_mem_cons.1 lacks
      rw [adjust, if_neg first, ih rest, Option.map_map]
      rfl

theorem adjust_last (lacks : Lacks before key) :
    adjust key change (before ++ [(key, node)]) =
      (change (some node)).map fun node => before ++ [(key, node)] := by
  induction before with
  | nil => exact if_pos rfl
  | cons e before ih =>
      obtain ⟨first, rest⟩ := List.forall_mem_cons.1 lacks
      rw [List.cons_append, adjust, if_neg first, ih rest, Option.map_map]
      rfl

end

def valuesOf (pairs : Table) : Entries := pairs.map fun (key, v) => (key, .value v)

/-- Whether lines at a path add to a table within the entries, given as what is around it. -/
def Adds (path : List Text) (around : Entries → Entries) : Prop :=
  ∀ change inner, within false change path .header (around inner) =
    (change .header inner).map around

namespace Adds
variable {key : Text} {before : Entries}

theorem top : Adds [] id := by
  intro change inner
  rw [within, Option.map_id]
  rfl

theorem table (lacks : Lacks before key) :
    Adds [key] fun inner => before ++ [(key, .table .header inner)] := by
  intro change inner
  rw [within, adjust_last lacks]
  simp only [Bool.false_and, Bool.false_eq_true, if_false, within, Option.map_map,
    Function.comp_def]

theorem item (lacks : Lacks before key) (items : List Entries) :
    Adds [key] fun inner => before ++ [(key, .tables (items ++ [inner]))] := by
  intro change inner
  rw [within, adjust_last lacks]
  simp only [List.getLast?_concat, List.dropLast_concat, within, Option.map_map,
    Function.comp_def]

end Adds

section
variable {path : List Text} {around : Entries → Entries}

theorem step_pair (adds : Adds path around) {inner : Entries} {pair : Text × Value}
    (lacks : Lacks inner pair.1) :
    Progress.step ⟨around inner, path⟩ (.ofPair pair) =
      some ⟨around (inner ++ valuesOf [pair]), path⟩ := by
  have put : assign [] pair.1 pair.2 .header inner = some (inner ++ valuesOf [pair]) := by
    rw [assign, within]
    exact adjust_lacking lacks
  rw [Statement.ofPair, Progress.step, adds, put]
  rfl

theorem foldlM_pairs (adds : Adds path around) {pairs : Table} {inner : Entries}
    (lacks : ∀ pair ∈ pairs, Lacks inner pair.1) (distinct : (pairs.map Prod.fst).Nodup) :
    (pairs.map Statement.ofPair).foldlM Progress.step ⟨around inner, path⟩ =
      some ⟨around (inner ++ valuesOf pairs), path⟩ := by
  induction pairs generalizing inner with
  | nil => simp [valuesOf]
  | cons pair pairs ih =>
      obtain ⟨first, rest⟩ := List.forall_mem_cons.1 lacks
      obtain ⟨apart, distinct⟩ := List.nodup_cons.1 distinct
      have lacks : ∀ other ∈ pairs, Lacks (inner ++ valuesOf [pair]) other.1 := by
        intro other member e inside
        obtain old | new := List.mem_append.1 inside
        · exact rest other member e old
        · obtain rfl := List.mem_singleton.1 new
          exact fun same => apart (List.mem_map.2 ⟨other, member, same.symm⟩)
      rw [List.map_cons, List.foldlM_cons, step_pair adds first]
      simp only [Option.bind_eq_bind, Option.bind_some]
      rw [ih lacks distinct, List.append_assoc]
      rfl

end

theorem foldlM_table {entries : Entries} {key : Text} {pairs : Table} (lacks : Lacks entries key)
    (distinct : (pairs.map Prod.fst).Nodup) (path : List Text) :
    (Part.table key pairs).statements.foldlM Progress.step ⟨entries, path⟩ =
      some ⟨entries ++ [(key, .table .header (valuesOf pairs))], [key]⟩ := by
  have opened : openTable [] key entries = some (entries ++ [(key, .table .header [])]) := by
    rw [openTable, within]
    exact adjust_lacking lacks
  rw [Part.statements, List.foldlM_cons, Progress.step, opened]
  exact foldlM_pairs (.table lacks) nofun distinct

theorem foldlM_item {before entries : Entries} {key : Text} {items : List Entries} {pairs : Table}
    (opened : openItem [] key entries = some (before ++ [(key, .tables (items ++ [[]]))]))
    (lacks : Lacks before key) (distinct : (pairs.map Prod.fst).Nodup) (path : List Text) :
    (Part.item key pairs).statements.foldlM Progress.step ⟨entries, path⟩ =
      some ⟨before ++ [(key, .tables (items ++ [valuesOf pairs]))], [key]⟩ := by
  rw [Part.statements, List.foldlM_cons, Progress.step, opened]
  exact foldlM_pairs (.item lacks items) nofun distinct

def entryOf (t : Text × Table) : Text × Node := (t.1, .table .header (valuesOf t.2))

/-- Tables of their own stand one after the other. -/
theorem foldlM_tables {tables : List (Text × Table)} {entries : Entries}
    (lacks : ∀ t ∈ tables, Lacks entries t.1) (apart : (tables.map Prod.fst).Nodup)
    (distinct : ∀ t ∈ tables, (t.2.map Prod.fst).Nodup) (path : List Text) :
    ∃ last, ((tables.map fun t => Part.table t.1 t.2).flatMap Part.statements).foldlM
      Progress.step ⟨entries, path⟩ = some ⟨entries ++ tables.map entryOf, last⟩ := by
  induction tables generalizing entries path with
  | nil => exact ⟨path, by rw [List.map_nil, List.map_nil, List.append_nil]; rfl⟩
  | cons t tables ih =>
      obtain ⟨first, rest⟩ := List.forall_mem_cons.1 lacks
      obtain ⟨other, apart⟩ := List.nodup_cons.1 apart
      obtain ⟨own, distinct⟩ := List.forall_mem_cons.1 distinct
      have lacks : ∀ u ∈ tables, Lacks (entries ++ [entryOf t]) u.1 := by
        intro u member e inside
        obtain old | new := List.mem_append.1 inside
        · exact rest u member e old
        · obtain rfl := List.mem_singleton.1 new
          exact fun same => other (List.mem_map.2 ⟨u, member, same.symm⟩)
      obtain ⟨last, more⟩ := ih lacks apart distinct [t.1]
      refine ⟨last, ?_⟩
      rw [List.map_cons, List.flatMap_cons, List.foldlM_append, foldlM_table first own,
        Option.bind_eq_bind, Option.bind_some]
      rw [entryOf] at more
      rw [more, List.append_assoc]
      rfl

theorem foldlM_moreItems {before : Entries} {key : Text} (lacks : Lacks before key)
    {rows : List Table} (distinct : ∀ row ∈ rows, (row.map Prod.fst).Nodup)
    (items : List Entries) :
    ((rows.map (Part.item key)).flatMap Part.statements).foldlM Progress.step
      ⟨before ++ [(key, .tables items)], [key]⟩ =
        some ⟨before ++ [(key, .tables (items ++ rows.map valuesOf))], [key]⟩ := by
  induction rows generalizing items with
  | nil =>
      rw [List.map_nil, List.map_nil, List.append_nil]
      rfl
  | cons row rows ih =>
      obtain ⟨own, distinct⟩ := List.forall_mem_cons.1 distinct
      have opened : openItem [] key (before ++ [(key, .tables items)]) =
          some (before ++ [(key, .tables (items ++ [[]]))]) := by
        rw [openItem, within, adjust_last lacks]
        rfl
      rw [List.map_cons, List.flatMap_cons, List.foldlM_append, foldlM_item opened lacks own,
        Option.bind_eq_bind, Option.bind_some, ih distinct, List.append_assoc]
      rfl

/-- Tables that share a header stand under one key. -/
theorem foldlM_items {row : Table} {rows : List Table} {entries : Entries} {key : Text}
    (lacks : Lacks entries key) (distinct : ∀ r ∈ row :: rows, (r.map Prod.fst).Nodup)
    (path : List Text) :
    (((row :: rows).map (Part.item key)).flatMap Part.statements).foldlM Progress.step
      ⟨entries, path⟩ = some ⟨entries ++ [(key, .tables ((row :: rows).map valuesOf))], [key]⟩ := by
  obtain ⟨own, distinct⟩ := List.forall_mem_cons.1 distinct
  have opened : openItem [] key entries = some (entries ++ [(key, .tables ([] ++ [[]]))]) := by
    rw [openItem, within]
    exact adjust_lacking lacks
  rw [List.map_cons, List.flatMap_cons, List.foldlM_append, foldlM_item opened lacks own,
    Option.bind_eq_bind, Option.bind_some, foldlM_moreItems lacks distinct]
  rfl

theorem tableOf_eq_map (entries : Entries) :
    tableOf entries = entries.map fun e => (e.1, e.2.toValue) := by
  induction entries with
  | nil => rfl
  | cons e entries ih => rw [tableOf, ih, List.map_cons]

theorem tablesOf_eq_map (items : List Entries) :
    tablesOf items = items.map fun entries => .table (tableOf entries) := by
  induction items with
  | nil => rfl
  | cons entries items ih => rw [tablesOf, ih, List.map_cons]

theorem tableOf_append (a b : Entries) : tableOf (a ++ b) = tableOf a ++ tableOf b := by
  simp only [tableOf_eq_map, List.map_append]

theorem tableOf_valuesOf (pairs : Table) : tableOf (valuesOf pairs) = pairs := by
  simp only [tableOf_eq_map, valuesOf, List.map_map, Function.comp_def, Node.toValue, List.map_id']

theorem tableOf_entries (tables : List (Text × Table)) :
    tableOf (tables.map entryOf) = tables.map fun t => (t.1, .table t.2) := by
  rw [tableOf_eq_map, List.map_map]
  refine List.map_congr_left fun t _ => ?_
  rw [Function.comp_apply, entryOf, Node.toValue, tableOf_valuesOf]

theorem tablesOf_valuesOf (rows : List Table) : tablesOf (rows.map valuesOf) = rows.map .table := by
  simp only [tablesOf_eq_map, List.map_map, Function.comp_def, tableOf_valuesOf]

end ApiReference.Toml
