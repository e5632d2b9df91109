import ApiReference.Toml.Lexical
import ApiReference.Toml.Tree

/-!
# Reading TOML

A document is a list of lines, each of which names a table or gives a key its value. Whether the
lines fit together is decided once they have all been read.
-/

namespace ApiReference.Toml

/-- The greatest depth of arrays and tables in a value and of keys in a path. -/
def depthLimit : Nat := 79

/-- The place of a value: the path to its table and its key there. -/
structure Place where
  path : List Text
  key : Text

/-- The place that a dotted key names; a key has a last part and not too many before it. -/
def Place.ofKeys? (keys : List Text) : Option Place :=
  if depthLimit < keys.length then none
  else keys.getLast?.map fun key => ⟨keys.dropLast, key⟩

/-- A dotted key and the text after it. -/
def readPlace (t : Text) : Option (Place × Text) := do
  let (keys, rest) ← readPath (t.length + 1) t
  return (← Place.ofKeys? keys, rest)

/-- The items of an array after its opening bracket. A comma may follow the last one. -/
def readItems (item : Text → Option (Value × Text)) : Nat → Text → Option (List Value × Text)
  | 0, _ => none
  | n + 1, t =>
    match skipSpace false t with
    | ']' :: rest => some ([], rest)
    | t => do
      let (v, rest) ← item t
      match skipSpace false rest with
      | ']' :: rest => return ([v], rest)
      | ',' :: rest => do
        let (vs, rest) ← readItems item n rest
        return (v :: vs, rest)
      | _ => none

/-- A dotted key, an equals sign and a value. -/
def readPair (item : Text → Option (Value × Text)) (t : Text) :
    Option ((Place × Value) × Text) := do
  let (place, rest) ← readPlace t
  match rest with
  | '=' :: rest => do
    let (v, rest) ← item (skipBlanks rest)
    return ((place, v), rest)
  | _ => none

/-- The pairs of an inline table that has some, up to its closing brace. -/
def readPairs (item : Text → Option (Value × Text)) :
    Nat → Text → Option (List (Place × Value) × Text)
  | 0, _ => none
  | n + 1, t => do
    let (pair, rest) ← readPair item t
    match skipBlanks rest with
    | '}' :: rest => return ([pair], rest)
    | ',' :: rest => do
      let (pairs, rest) ← readPairs item n rest
      return (pair :: pairs, rest)
    | _ => none

/-- The table that pairs on one line make up. -/
def inlineTable? (pairs : List (Place × Value)) : Option Value := do
  let entries ← pairs.foldlM
    (fun entries (place, v) => assign place.path place.key v .header entries) []
  return .table (tableOf entries)

/-- A value of at most the given depth. -/
def readValue : Nat → Text → Option (Value × Text)
  | _, [] => none
  | depth, c :: rest =>
    if c == '"' || c == apostrophe then
      (readString (c :: rest)).map fun (t, rest) => (.string t, rest)
    else
      match c, depth with
      | '[', depth + 1 =>
        (readItems (readValue depth) (rest.length + 1) rest).map fun (vs, rest) => (.array vs, rest)
      | '{', depth + 1 =>
        match skipBlanks rest with
        | '}' :: rest => some (.table [], rest)
        | rest => do
          let (pairs, rest) ← readPairs (readValue depth) (rest.length + 1) rest
          return (← inlineTable? pairs, rest)
      | _, _ => readWord (c :: rest)

/-- What a line says. -/
inductive Statement where
  | pair (place : Place) (v : Value)
  /-- The header of a table. -/
  | table (place : Place)
  /-- The header of one of several tables. -/
  | item (place : Place)

/-- A line that is not blank. -/
def readStatement (t : Text) : Option (Statement × Text) :=
  match t with
  | '[' :: '[' :: rest => do
    let (place, rest) ← readPlace rest
    match rest with
    | ']' :: ']' :: rest => return (.item place, rest)
    | _ => none
  | '[' :: rest => do
    let (place, rest) ← readPlace rest
    match rest with
    | ']' :: rest => return (.table place, rest)
    | _ => none
  | t => (readPair (readValue depthLimit) t).map fun ((place, v), rest) => (.pair place v, rest)

/-- The lines of a document. -/
def readStatements : Nat → Text → Option (List Statement)
  | 0, _ => none
  | n + 1, t =>
    match skipSpace false t with
    | [] => some []
    | t => do
      let (statement, rest) ← readStatement t
      return statement :: (← readStatements n (← endLine? rest))

/-- The entries read so far and the path of the table that lines now add to. -/
structure Progress where
  root : Entries
  here : List Text

/-- The effect of a line. -/
def Progress.step (p : Progress) : Statement → Option Progress
  | .table ⟨path, key⟩ => (openTable path key p.root).map fun root => ⟨root, path ++ [key]⟩
  | .item ⟨path, key⟩ => (openItem path key p.root).map fun root => ⟨root, path ++ [key]⟩
  | .pair ⟨path, key⟩ v =>
    (within false (assign path key v) p.here .header p.root).map fun root => { p with root := root }

/-- Line ends as a line feed alone. -/
def joinLineEnds : Text → Text
  | '\r' :: '\n' :: rest => '\n' :: joinLineEnds rest
  | c :: rest => c :: joinLineEnds rest
  | [] => []

/-- The text after a byte order mark, if there is one. -/
def skipByteOrderMark (t : Text) : Text := (Text.stripStart [Char.ofNat 0xFEFF] t).getD t

/-- The table that a document stands for. -/
def read? (t : Text) : Option Table := do
  let t := joinLineEnds (skipByteOrderMark t)
  let statements ← readStatements (t.length + 1) t
  let progress ← statements.foldlM Progress.step ⟨[], []⟩
  return tableOf progress.root

end ApiReference.Toml
