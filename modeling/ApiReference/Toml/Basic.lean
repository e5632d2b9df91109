import ApiReference.Number.Binary64
import ApiReference.Toml.Datetime

/-!
# TOML values

A document is a table; a table maps keys to values, in order of first appearance.
-/

namespace ApiReference.Toml

/-- A TOML value. -/
inductive Value where
  | string (t : Text)
  | integer (n : Int)
  | float (x : Number.Binary64)
  | boolean (b : Bool)
  | datetime (d : Datetime)
  | array (items : List Value)
  | table (entries : List (Text × Value))

abbrev Table := List (Text × Value)

def Table.get? (t : Table) (key : Text) : Option Value :=
  (t.find? fun e => e.1 == key).map Prod.snd

end ApiReference.Toml
