import ApiReference.Text.Basic

/-!
# JSON values

A number keeps the digits it was written with, so writing a value that was read changes nothing.
-/

namespace ApiReference.Json

/-- A JSON value. -/
inductive Value where
  | null
  | bool (b : Bool)
  /-- A number by its literal. -/
  | number (literal : Text)
  | string (t : Text)
  | array (items : List Value)
  /-- Fields in order of writing. -/
  | object (fields : List (Text × Value))

namespace Value

def ofNat (n : Nat) : Value := .number (Text.ofNat n)

def ofInt (n : Int) : Value :=
  if n < 0 then .number ('-' :: Text.ofNat n.natAbs) else .ofNat n.natAbs

def ofString (s : String) : Value := .string s.toList

def ofTexts (ts : List Text) : Value := .array (ts.map .string)

def ofOption {α : Type} (f : α → Value) : Option α → Value
  | some a => f a
  | none => .null

/-- An object from literal keys. -/
def ofFields (fields : List (String × Value)) : Value :=
  .object (fields.map fun (k, v) => (k.toList, v))

/-- The value under a key; of equal keys the last one counts. -/
def field? (v : Value) (key : Text) : Option Value :=
  match v with
  | .object fields => (fields.reverse.find? fun (k, _) => k == key).map Prod.snd
  | _ => none

def asText? : Value → Option Text
  | .string t => some t
  | _ => none

def asBool? : Value → Option Bool
  | .bool b => some b
  | _ => none

/-- A number without sign, fraction and exponent. -/
def asNat? : Value → Option Nat
  | .number literal =>
    if !literal.isEmpty && literal.all Text.isAsciiDigit then some (Text.toNat literal) else none
  | _ => none

def asArray? : Value → Option (List Value)
  | .array items => some items
  | _ => none

end Value
end ApiReference.Json
