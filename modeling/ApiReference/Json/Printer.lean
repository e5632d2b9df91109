import ApiReference.Json.Basic

/-!
# Writing JSON

The compact form has no white space; the indented form has one item per line and two spaces per
level. Text is quoted with the short escapes where there are any.
-/

namespace ApiReference.Json

def hexDigit (n : Nat) : Char := if n < 10 then Char.ofNat (48 + n) else Char.ofNat (87 + n)

def quoteChar (c : Char) : Text :=
  match c.toNat with
  | 0x22 => "\\\"".toList
  | 0x5C => "\\\\".toList
  | 0x08 => "\\b".toList
  | 0x09 => "\\t".toList
  | 0x0A => "\\n".toList
  | 0x0C => "\\f".toList
  | 0x0D => "\\r".toList
  | n => if n < 0x20 then "\\u00".toList ++ [hexDigit (n / 16), hexDigit (n % 16)] else [c]

def quote (t : Text) : Text := '"' :: t.flatMap quoteChar ++ ['"']

mutual
/-- The form without white space. -/
def Value.compact : Value → Text
  | .null => "null".toList
  | .bool b => if b then "true".toList else "false".toList
  | .number literal => literal
  | .string t => quote t
  | .array items => '[' :: Text.join [','] (compactItems items) ++ [']']
  | .object fields => '{' :: Text.join [','] (compactFields fields) ++ ['}']

def compactItems : List Value → List Text
  | [] => []
  | v :: vs => v.compact :: compactItems vs

def compactFields : List (Text × Value) → List Text
  | [] => []
  | (k, v) :: fs => (quote k ++ ':' :: v.compact) :: compactFields fs
end

/-- A line break and two spaces per level. -/
def newline (level : Nat) : Text := '\n' :: List.replicate (2 * level) ' '

/-- Brackets around items on lines of their own; no items leave the brackets empty. -/
def indentedBlock (opening closing : Char) (level : Nat) (items : List Text) : Text :=
  if items.isEmpty then [opening, closing]
  else opening :: newline (level + 1) ++ Text.join (',' :: newline (level + 1)) items ++
    newline level ++ [closing]

mutual
/-- The form with one item per line, starting at a level of indentation. -/
def Value.indented (level : Nat) : Value → Text
  | .null => "null".toList
  | .bool b => if b then "true".toList else "false".toList
  | .number literal => literal
  | .string t => quote t
  | .array items => indentedBlock '[' ']' level (indentedItems (level + 1) items)
  | .object fields => indentedBlock '{' '}' level (indentedFields (level + 1) fields)

def indentedItems (level : Nat) : List Value → List Text
  | [] => []
  | v :: vs => v.indented level :: indentedItems level vs

def indentedFields (level : Nat) : List (Text × Value) → List Text
  | [] => []
  | (k, v) :: fs => (quote k ++ ": ".toList ++ v.indented level) :: indentedFields level fs
end

end ApiReference.Json
