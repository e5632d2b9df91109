import ApiReference.Declaration.Build
import ApiReference.Syntax.Source

/-!
# Collecting the definitions of a file

Every tree of a file is visited once, in source order, and contributes what it finds.
-/

namespace ApiReference.Declaration
open ApiReference.Syntax (Tree Focus)

def ownFault (t : Tree) : List Fault :=
  if t.kind == .unreadable then [.unreadable (t.start.row + 1)]
  else if t.label.missing then [.missing t.kind.name (t.start.row + 1)]
  else []

/-- What one tree contributes, leaving aside its children. -/
def findings (f : Focus) : File :=
  match classify f with
  | none => ⟨[], ownFault f.tree⟩
  | some d =>
    match build f d with
    | .ok definition => ⟨[definition], ownFault f.tree⟩
    | .error fault => ⟨[], ownFault f.tree ++ [fault]⟩

def File.add (file more : File) : File :=
  ⟨file.definitions ++ more.definitions, file.faults ++ more.faults⟩

/-- A walk through a tree: the trees that wait for their turn, the next one on top, and what has been
found so far. -/
structure Walk where
  stack : List Focus
  found : File

namespace Walk

/-- Before the root is visited. -/
def start (t : Tree) : Walk := ⟨[⟨t, []⟩], ⟨[], []⟩⟩

/-- Puts trees on a stack, the last of them on top. -/
def push (stack fs : List Focus) : List Focus := fs.foldl (fun stack f => f :: stack) stack

/-- One round. The tree on top adds what it finds, and its children are put on the stack from the
last to the first. -/
def step (w : Walk) : Walk :=
  match w.stack with
  | [] => w
  | f :: stack => ⟨push stack f.children.reverse, w.found.add (findings f)⟩

def pending (w : Walk) : Nat := Tree.sizeAll (w.stack.map Focus.tree)

theorem push_reverse (stack fs : List Focus) : push stack fs.reverse = fs ++ stack := by
  rw [push, List.foldl_flip_cons_eq_append, List.map_id', List.reverse_reverse]

theorem pending_step {w : Walk} (more : w.stack ≠ []) : w.pending = w.step.pending + 1 := by
  obtain ⟨_ | ⟨f, stack⟩, found⟩ := w
  · exact absurd rfl more
  · simp only [pending, step, push_reverse, List.map_cons, List.map_append, Tree.sizeAll,
      Tree.sizeAll_append, f.size_eq]
    omega

/-- Goes on until no tree waits. -/
def finish (w : Walk) : File :=
  if _ : w.stack = [] then w.found else w.step.finish
termination_by w.pending
decreasing_by
  have more : w.stack ≠ [] := by assumption
  rw [pending_step more]
  exact Nat.lt_succ_self _

end Walk

def collect (t : Tree) : File := (Walk.start t).finish

def File.ofSource (d : Syntax.Dialect) (source : Text) : File := collect (Syntax.read d source)

end ApiReference.Declaration
