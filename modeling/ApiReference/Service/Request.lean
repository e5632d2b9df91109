import ApiReference.Text.Basic

/-!
# Requests

What may be asked: the context of one API, or a search over the APIs of several frameworks.
-/

namespace ApiReference

/-- A question about one API. -/
structure ContextRequest where
  query : Text
  /-- Takes the place of the framework named in the query. -/
  framework : Option Text := none
  /-- Takes the place of the version named in the query. -/
  version : Option Text := none
  /-- Examples are included unless this says otherwise. -/
  includeExamples : Option Bool := none
  maxExamples : Option Nat := none
  deriving DecidableEq, Repr

/-- A search for APIs. -/
structure SearchRequest where
  query : Text
  /-- Where to search, unless in the configured frameworks. -/
  frameworks : Option (List Text) := none
  limit : Option Nat := none
  deriving DecidableEq, Repr

end ApiReference
