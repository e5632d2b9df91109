/-!
# A bounded first-in-first-out map

A cache keeps values under keys and, beside them, the keys in the order in which they came. A new
key drives out the oldest ones when the cache is full; a present key only gets a new value and keeps
its age.
-/

namespace ApiReference

/-- A bounded map from keys to values. -/
structure Cache (κ ν : Type) where
  capacity : Nat
  /-- The values with their keys. -/
  values : List (κ × ν)
  /-- The keys, oldest first. -/
  order : List κ

namespace Cache
variable {κ ν : Type} [DecidableEq κ]

def lookup (values : List (κ × ν)) (key : κ) : Option ν :=
  (values.find? fun e => e.1 == key).map Prod.snd

/-- The table with a new value under a key that it has. -/
def replace (key : κ) (value : ν) : List (κ × ν) → List (κ × ν)
  | [] => []
  | e :: es => if e.1 = key then (key, value) :: es else e :: replace key value es

def remove (key : κ) (values : List (κ × ν)) : List (κ × ν) := values.filter fun e => e.1 ≠ key

theorem lookup_cons (e : κ × ν) (es : List (κ × ν)) (key : κ) :
    lookup (e :: es) key = if e.1 = key then some e.2 else lookup es key := by
  by_cases same : e.1 = key <;> simp [lookup, same]

theorem isSome_lookup {values : List (κ × ν)} {key : κ} :
    (lookup values key).isSome ↔ key ∈ values.map Prod.fst := by
  induction values with
  | nil => simp [lookup]
  | cons e es ih =>
      by_cases same : e.1 = key
      · simp [lookup_cons, same]
      · rw [lookup_cons, if_neg same, ih, List.map_cons, List.mem_cons, or_iff_right (Ne.symm same)]

theorem mem_of_lookup {values : List (κ × ν)} {key : κ} {value : ν}
    (h : lookup values key = some value) : (key, value) ∈ values := by
  obtain ⟨e, found, rfl⟩ := Option.map_eq_some_iff.mp h
  have same : e.1 = key := by simpa using List.find?_some found
  subst same
  exact List.mem_of_find?_eq_some found

@[simp] theorem map_fst_replace (key : κ) (value : ν) (values : List (κ × ν)) :
    (replace key value values).map Prod.fst = values.map Prod.fst := by
  induction values with
  | nil => rfl
  | cons e es ih =>
      by_cases same : e.1 = key
      · simp [replace, same]
      · simp [replace, same, ih]

theorem lookup_replace {key : κ} (value : ν) {values : List (κ × ν)} (other : κ)
    (h : key ∈ values.map Prod.fst) :
    lookup (replace key value values) other =
      if key = other then some value else lookup values other := by
  induction values with
  | nil => cases h
  | cons e es ih =>
      by_cases same : e.1 = key
      · by_cases this : key = other <;> simp [replace, lookup_cons, same, this]
      · have member : key ∈ es.map Prod.fst := by
          simpa [Ne.symm same] using h
        rw [replace, if_neg same, lookup_cons, lookup_cons, ih member]
        by_cases this : key = other
        · subst this
          simp [same]
        · simp [this]

@[simp] theorem map_fst_remove (key : κ) (values : List (κ × ν)) :
    (remove key values).map Prod.fst = (values.map Prod.fst).filter fun k => k ≠ key := by
  simp [remove, List.filter_map, Function.comp_def]

theorem lookup_remove (key other : κ) (values : List (κ × ν)) :
    lookup (remove key values) other = if key = other then none else lookup values other := by
  induction values with
  | nil => simp [remove, lookup]
  | cons e es ih =>
      have split : remove key (e :: es) =
          if e.1 ≠ key then e :: remove key es else remove key es := by
        simp [remove, List.filter_cons]
      by_cases same : e.1 = key
      · rw [split, if_neg (not_not_intro same), ih, lookup_cons, same]
        by_cases this : key = other <;> simp [this]
      · rw [split, if_pos same, lookup_cons, ih, lookup_cons]
        by_cases this : key = other
        · subst this
          simp [same]
        · simp [this]

theorem mem_of_mem_replace {key : κ} {value : ν} {e : κ × ν} {values : List (κ × ν)}
    (h : e ∈ replace key value values) : e ∈ values ∨ e = (key, value) := by
  induction values with
  | nil => cases h
  | cons a es ih =>
      by_cases same : a.1 = key
      · rw [replace, if_pos same] at h
        rcases List.mem_cons.mp h with new | old
        · exact .inr new
        · exact .inl (List.mem_cons_of_mem a old)
      · rw [replace, if_neg same] at h
        rcases List.mem_cons.mp h with rfl | old
        · exact .inl List.mem_cons_self
        · exact (ih old).imp (List.mem_cons_of_mem a) id

/-- A cache without values; it has room for at least one. -/
def empty (capacity : Nat) : Cache κ ν := ⟨max capacity 1, [], []⟩

def get? (c : Cache κ ν) (key : κ) : Option ν := lookup c.values key

def keys (c : Cache κ ν) : List κ := c.values.map Prod.fst

/-- What is left of the keys in order and of a table when the oldest keys have gone until there is
room for one more. -/
def makeRoom (capacity : Nat) : List κ → List (κ × ν) → List κ × List (κ × ν)
  | [], values => ([], values)
  | oldest :: order, values =>
    if capacity ≤ order.length + 1 then makeRoom capacity order (remove oldest values)
    else (oldest :: order, values)

def insert (c : Cache κ ν) (key : κ) (value : ν) : Cache κ ν :=
  if (c.get? key).isSome then { c with values := replace key value c.values }
  else
    let (order, values) := makeRoom c.capacity c.order c.values
    { c with values := (key, value) :: values, order := order ++ [key] }

def clear (c : Cache κ ν) : Cache κ ν := { c with values := [], order := [] }

def size (c : Cache κ ν) : Nat := c.values.length

theorem mem_of_get? {c : Cache κ ν} {key : κ} {value : ν} (h : c.get? key = some value) :
    (key, value) ∈ c.values := mem_of_lookup h

theorem mem_of_mem_makeRoom {capacity : Nat} {order : List κ} {values : List (κ × ν)} {e : κ × ν}
    (h : e ∈ (makeRoom capacity order values).2) : e ∈ values := by
  induction order generalizing values with
  | nil => exact h
  | cons oldest order ih =>
      rw [makeRoom] at h
      split at h
      · exact (List.mem_filter.mp (ih h)).1
      · exact h

/-- An insertion brings in no other value than its own. -/
theorem mem_insert {c : Cache κ ν} {key : κ} {value : ν} {e : κ × ν}
    (h : e ∈ (c.insert key value).values) : e ∈ c.values ∨ e = (key, value) := by
  unfold insert at h
  split at h
  · exact mem_of_mem_replace h
  · rcases List.mem_cons.mp h with new | old
    · exact .inr new
    · exact .inl (mem_of_mem_makeRoom old)

end Cache
end ApiReference
