import ApiReference.Json.Basic

/-!
# Package manifests

A manifest names the main declaration file of a package in one of several places.
-/

namespace ApiReference.Package
open ApiReference.Json (Value)

def child? (v : Value) (key : String) : Option Value := v.field? key.toList

/-- The types named by the exports of a manifest, for any way of loading the package. -/
def exportedTypes? (manifest : Value) : Option Value := do
  let root ← child? (← child? manifest "exports") "."
  let typesFor := fun condition => (child? root condition).bind fun v => child? v "types"
  child? root "types" <|> typesFor "import" <|> typesFor "require"

/-- The main declaration file that a manifest names. The first place that is present decides,
whatever its value. -/
def typesPath? (manifest : Value) : Option Text := do
  let named ← child? manifest "types" <|> child? manifest "typings" <|> exportedTypes? manifest
  let path := Text.stripStartAll "./".toList (← named.asText?)
  if path.isEmpty then none else some path

/-- The main declaration file of a package whose manifest names none. -/
def defaultTypesPath : Text := "index.d.ts".toList

end ApiReference.Package
