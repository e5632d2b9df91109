import ApiReference.Syntax.Focus

/-!
# Addresses in a tree

An address says by numbers of children how to come from the root to a tree. A visit meets every
address once, in the order of the document: a tree before what is in it, and all of that before what
is in the trees to the right.
-/

namespace ApiReference.Syntax.Focus

def root (t : Tree) : Focus := ⟨t, []⟩

/-- A tree as the child of a number. -/
def child (f : Focus) (i : Nat) (t : Tree) : Focus :=
  ⟨t, ⟨f.tree, (f.tree.children.take i).reverse⟩ :: f.above⟩

/-- The tree to which numbers of children lead, if there are so many children on the way. -/
def descend? : Focus → List Nat → Option Focus
  | f, [] => some f
  | f, i :: path => f.tree.children[i]?.bind fun t => (f.child i t).descend? path

/-- At each step from the root the number of siblings to the left. -/
def address (f : Focus) : List Nat := (f.above.map fun frame => frame.before.length).reverse

theorem getElem?_childrenAfter (parent : Tree) (above : List Frame) (before ts : List Tree)
    (i : Nat) :
    (childrenAfter parent above before ts)[i]? =
      ts[i]?.map fun t => ⟨t, ⟨parent, (ts.take i).reverse ++ before⟩ :: above⟩ := by
  induction ts generalizing before i with
  | nil => rfl
  | cons t ts ih =>
      cases i with
      | zero => rfl
      | succ i =>
          rw [childrenAfter, List.getElem?_cons_succ, ih]
          simp

theorem getElem?_children (f : Focus) (i : Nat) :
    f.children[i]? = f.tree.children[i]?.map (f.child i) := by
  simp only [children, getElem?_childrenAfter, List.append_nil]
  rfl

theorem exists_child_of_getElem? {f c : Focus} {i : Nat} (listed : f.children[i]? = some c) :
    ∃ t, f.tree.children[i]? = some t ∧ f.child i t = c := by
  rwa [getElem?_children, Option.map_eq_some_iff] at listed

theorem mem_children {f c : Focus} :
    c ∈ f.children ↔ ∃ i t, f.tree.children[i]? = some t ∧ f.child i t = c := by
  simp only [List.mem_iff_getElem?, getElem?_children, Option.map_eq_some_iff]

theorem address_child {f : Focus} {i : Nat} {t : Tree} (listed : f.tree.children[i]? = some t) :
    (f.child i t).address = f.address ++ [i] := by
  have some_left : i ≤ f.tree.children.length := by
    obtain ⟨inside, -⟩ := List.getElem?_eq_some_iff.mp listed
    exact Nat.le_of_lt inside
  simp only [address, child, List.map_cons, List.reverse_cons, List.length_reverse,
    List.length_take, Nat.min_eq_left some_left]

theorem size_le_sizeAll {t : Tree} {ts : List Tree} (member : t ∈ ts) :
    t.size ≤ Tree.sizeAll ts := by
  obtain ⟨before, after, rfl⟩ := List.append_of_mem member
  rw [Tree.sizeAll_append, Tree.sizeAll]
  omega

theorem size_lt_of_mem_children {f c : Focus} (member : c ∈ f.children) :
    c.tree.size < f.tree.size := by
  rw [f.size_eq]
  exact Nat.lt_succ_of_le (size_le_sizeAll (List.mem_map_of_mem member))

/-- What holds of a tree whenever it holds of its children holds of every tree. -/
theorem by_children {motive : Focus → Prop}
    (step : ∀ f, (∀ c ∈ f.children, motive c) → motive f) (f : Focus) : motive f := by
  induction size : f.tree.size using Nat.strongRecOn generalizing f with
  | ind n ih =>
      subst size
      exact step f fun c member => ih c.tree.size (size_lt_of_mem_children member) c rfl

theorem mem_visit {f g : Focus} :
    g ∈ visit f.above f.tree ↔ g = f ∨ ∃ c ∈ f.children, g ∈ visit c.above c.tree := by
  rw [visit_eq, List.mem_cons, List.mem_flatMap]

/-- A visit stays below the tree it begins with. -/
theorem descend?_of_mem_visit (f : Focus) :
    ∀ g ∈ visit f.above f.tree,
      ∃ path, f.descend? path = some g ∧ g.address = f.address ++ path := by
  induction f using by_children with
  | step f ih =>
      intro g member
      rcases mem_visit.mp member with rfl | ⟨c, isChild, below⟩
      · exact ⟨[], rfl, (List.append_nil _).symm⟩
      · obtain ⟨path, found, address⟩ := ih c isChild g below
        obtain ⟨i, t, listed, rfl⟩ := mem_children.mp isChild
        refine ⟨i :: path, ?_, ?_⟩
        · rw [descend?, listed]
          exact found
        · rw [address, address_child listed, List.append_assoc]
          rfl

theorem mem_visit_of_descend? {path : List Nat} {f g : Focus} (found : f.descend? path = some g) :
    g ∈ visit f.above f.tree ∧ g.address = f.address ++ path := by
  induction path generalizing f with
  | nil =>
      obtain rfl : f = g := Option.some.inj found
      exact ⟨mem_visit.mpr (.inl rfl), (List.append_nil _).symm⟩
  | cons i path ih =>
      obtain ⟨t, listed, below⟩ := Option.bind_eq_some_iff.mp found
      obtain ⟨member, address⟩ := ih below
      refine ⟨mem_visit.mpr (.inr ⟨_, mem_children.mpr ⟨i, t, listed, rfl⟩, member⟩), ?_⟩
      rw [address, address_child listed, List.append_assoc]
      rfl

/-- The trees visited from the root are those to which an address leads. -/
theorem descend?_root (t : Tree) (path : List Nat) (f : Focus) :
    (root t).descend? path = some f ↔ f ∈ visit [] t ∧ f.address = path := by
  constructor
  · exact fun found => mem_visit_of_descend? found
  · rintro ⟨member, rfl⟩
    obtain ⟨path, found, address⟩ := descend?_of_mem_visit (root t) f member
    rw [address]
    exact found

/-- What a child adds to an address, and what is below adds after it. -/
theorem address_below {f g : Focus} {i : Nat} {t : Tree}
    (listed : f.tree.children[i]? = some t)
    (below : g ∈ visit (f.child i t).above (f.child i t).tree) :
    ∃ path, g.address = f.address ++ i :: path := by
  obtain ⟨path, -, address⟩ := descend?_of_mem_visit (f.child i t) g below
  refine ⟨path, ?_⟩
  rw [address, address_child listed, List.append_assoc]
  rfl

/-- A visit goes up in the order of addresses, so it meets none of them twice. -/
theorem pairwise_visit (f : Focus) :
    (visit f.above f.tree).Pairwise fun g h => g.address < h.address := by
  induction f using by_children with
  | step f ih =>
      rw [visit_eq, List.pairwise_cons, List.pairwise_flatMap]
      refine ⟨fun g member => ?_, ih, ?_⟩
      · obtain ⟨c, isChild, below⟩ := List.mem_flatMap.mp member
        obtain ⟨i, t, listed, rfl⟩ := mem_children.mp isChild
        obtain ⟨path, address⟩ := address_below listed below
        have longer : f.address ++ [] < f.address ++ i :: path :=
          List.append_left_lt (List.nil_lt_cons i path)
        rwa [List.append_nil, ← address] at longer
      · rw [List.pairwise_iff_getElem]
        intro i j hi hj left g below h below'
        obtain ⟨t, listed, same⟩ := exists_child_of_getElem? (List.getElem?_eq_getElem hi)
        obtain ⟨t', listed', same'⟩ := exists_child_of_getElem? (List.getElem?_eq_getElem hj)
        rw [← same] at below
        rw [← same'] at below'
        obtain ⟨path, address⟩ := address_below listed below
        obtain ⟨path', address'⟩ := address_below listed' below'
        rw [address, address']
        exact List.append_left_lt (List.cons_lt_cons_iff.mpr (.inl left))

end ApiReference.Syntax.Focus
