import ApiReference.Toml.Basic

/-!
# Building a table

A document names its tables in any order, and a table may be named by its own header, by the header
of a table inside it, or by a dotted key. The tree remembers how each table came about, because that
decides who may still add to it: a header defines a table once, and a dotted key only adds to tables
that no header has defined.
-/

namespace ApiReference.Toml

/-- How a table came about. -/
inductive Origin where
  | header
  /-- Named in the header of a table inside it. -/
  | implied
  | dotted
  deriving DecidableEq, Repr

/-- What stands under a key while a document is read. -/
inductive Node where
  | value (v : Value)
  | table (origin : Origin) (entries : List (Text × Node))
  /-- Tables that share a header, in order. -/
  | tables (items : List (List (Text × Node)))

/-- The entries of a table while a document is read. -/
abbrev Entries := List (Text × Node)

/-- Changes what stands under a key, if the change is allowed. -/
def adjust (key : Text) (change : Option Node → Option Node) : Entries → Option Entries
  | [] => (change none).map fun node => [(key, node)]
  | (k, node) :: entries =>
    if k = key then (change (some node)).map fun node => (k, node) :: entries
    else (adjust key change entries).map fun entries => (k, node) :: entries

/-- Changes the table at a path, naming tables on the way. The last of several tables that share a
header stands for them all. -/
def within (dotted : Bool) (change : Origin → Entries → Option Entries) :
    List Text → Origin → Entries → Option Entries
  | [], origin, entries => change origin entries
  | key :: path, _, entries =>
    adjust key (fun
      | none =>
        let origin := if dotted then .dotted else .implied
        (within dotted change path origin []).map (.table origin)
      | some (.value _) => none
      | some (.tables items) =>
        match items.getLast? with
        | none => none
        | some last =>
          (within dotted change path .header last).map fun last =>
            .tables (items.dropLast ++ [last])
      | some (.table origin inner) =>
        if dotted && origin == .header then none
        else (within dotted change path origin inner).map (.table origin)) entries

/-- Puts a value under a dotted path, given as the path to its table and its own key. -/
def assign (path : List Text) (key : Text) (v : Value) (origin : Origin) (entries : Entries) :
    Option Entries :=
  within true
    (fun origin entries =>
      if (origin == .dotted) == path.isEmpty then none
      else adjust key (fun node => if node.isNone then some (.value v) else none) entries)
    path origin entries

def openTable (path : List Text) (key : Text) (root : Entries) : Option Entries :=
  within false
    (fun _ => adjust key fun
      | none => some (.table .header [])
      | some (.table .implied inner) => some (.table .header inner)
      | some _ => none)
    path .header root

/-- Opens one more of the tables that share a header. -/
def openItem (path : List Text) (key : Text) (root : Entries) : Option Entries :=
  within false
    (fun _ => adjust key fun
      | none => some (.tables [[]])
      | some (.tables items) => some (.tables (items ++ [[]]))
      | some _ => none)
    path .header root

mutual
/-- The value that a finished node stands for. -/
def Node.toValue : Node → Value
  | .value v => v
  | .table _ entries => .table (tableOf entries)
  | .tables items => .array (tablesOf items)

/-- The table of finished entries. -/
def tableOf : List (Text × Node) → List (Text × Value)
  | [] => []
  | (key, node) :: entries => (key, node.toValue) :: tableOf entries

def tablesOf : List (List (Text × Node)) → List Value
  | [] => []
  | entries :: items => .table (tableOf entries) :: tablesOf items
end

end ApiReference.Toml
