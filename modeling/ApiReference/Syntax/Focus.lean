import ApiReference.Syntax.Tree

/-!
# Trees in their surroundings

A focus is a tree together with the way up to the root: at each step the parent and the siblings to
the left. Main statement: a visit of a tree meets as many trees as the tree has.
-/

namespace ApiReference.Syntax

/-- One step up: the parent, and the siblings to the left with the nearest first. -/
structure Frame where
  parent : Tree
  before : List Tree

/-- A tree and the steps up to the root, innermost first. -/
structure Focus where
  tree : Tree
  above : List Frame

namespace Focus

def kind (f : Focus) : Kind := f.tree.kind

def parent? (f : Focus) : Option Focus :=
  match f.above with
  | [] => none
  | frame :: above => some ⟨frame.parent, above⟩

/-- The siblings to the left, nearest first. -/
def before (f : Focus) : List Tree :=
  match f.above with
  | [] => []
  | frame :: _ => frame.before

def childrenAfter (parent : Tree) (above : List Frame) : List Tree → List Tree → List Focus
  | _, [] => []
  | before, t :: ts =>
    ⟨t, ⟨parent, before⟩ :: above⟩ :: childrenAfter parent above (t :: before) ts

def children (f : Focus) : List Focus := childrenAfter f.tree f.above [] f.tree.children

mutual
/-- A tree and everything in it, each tree before its children. -/
def visit (above : List Frame) : Tree → List Focus
  | .node l ts => ⟨.node l ts, above⟩ :: visitAll (.node l ts) above [] ts

def visitAll (parent : Tree) (above : List Frame) : List Tree → List Tree → List Focus
  | _, [] => []
  | before, t :: ts =>
    visit (⟨parent, before⟩ :: above) t ++ visitAll parent above (t :: before) ts
end

mutual
theorem length_visit (above : List Frame) (t : Tree) : (visit above t).length = t.size :=
  match t with
  | .node l ts => by
    rw [visit, List.length_cons, length_visitAll, Tree.size, Nat.add_comm]

theorem length_visitAll (parent : Tree) (above : List Frame) (before ts : List Tree) :
    (visitAll parent above before ts).length = Tree.sizeAll ts :=
  match ts with
  | [] => by rw [visitAll, Tree.sizeAll, List.length_nil]
  | t :: ts => by
    rw [visitAll, List.length_append, length_visit, length_visitAll, Tree.sizeAll]
end

theorem flatMap_visit_childrenAfter (parent : Tree) (above : List Frame) (before ts : List Tree) :
    (childrenAfter parent above before ts).flatMap (fun f => visit f.above f.tree) =
      visitAll parent above before ts := by
  induction ts generalizing before with
  | nil => rfl
  | cons t ts ih => rw [childrenAfter, List.flatMap_cons, ih, visitAll]

/-- A tree comes first, then its children with all that is in them. -/
theorem visit_eq (f : Focus) :
    visit f.above f.tree = f :: f.children.flatMap fun c => visit c.above c.tree := by
  obtain ⟨⟨l, ts⟩, above⟩ := f
  rw [visit, children, flatMap_visit_childrenAfter]
  rfl

theorem map_tree_childrenAfter (parent : Tree) (above : List Frame) (before ts : List Tree) :
    (childrenAfter parent above before ts).map tree = ts := by
  induction ts generalizing before with
  | nil => rfl
  | cons t ts ih => rw [childrenAfter, List.map_cons, ih]

theorem size_eq (f : Focus) : f.tree.size = Tree.sizeAll (f.children.map tree) + 1 := by
  obtain ⟨⟨l, ts⟩, above⟩ := f
  rw [children, map_tree_childrenAfter, Tree.size, Nat.add_comm]
  rfl

end Focus
end ApiReference.Syntax
