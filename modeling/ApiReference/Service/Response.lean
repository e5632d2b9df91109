import ApiReference.Declaration.Search
import ApiReference.Declaration.Signature
import ApiReference.Package.Example

/-!
# Responses

What is answered. A response is always given: what could not be found is missing from it, and notes
say why.
-/

namespace ApiReference
open ApiReference.Declaration (ApiSignature DefinitionKind)
open ApiReference.Package (CodeExample)

/-- What is known about one API. -/
structure ContextResponse where
  query : Text
  framework : Option Text := none
  package : Option Text := none
  version : Option Text := none
  concept : Text
  api : Option ApiSignature := none
  examples : List CodeExample := []
  /-- Names like the one asked for, if that one was not found. -/
  relatedApis : List Text := []
  notes : List Text := []
  /-- The declaration file that the answer is from. -/
  typesSource : Option Text := none
  /-- How well the query was understood, in hundredths. -/
  confidence : Nat
  deriving DecidableEq, Repr

def ContextResponse.note (r : ContextResponse) (note : Text) : ContextResponse :=
  { r with notes := r.notes ++ [note] }

/-- One definition found by a search. -/
structure SearchResult where
  framework : Text
  package : Text
  version : Text
  name : Text
  kind : DefinitionKind
  signature : Text
  description : Option Text
  deprecated : Bool
  score : Int
  deriving DecidableEq, Repr

/-- What a search found. -/
structure SearchResponse where
  query : Text
  /-- The best results, best first. -/
  results : List SearchResult := []
  /-- The frameworks that could be searched, in order of request. -/
  frameworksSearched : List Text := []
  /-- The number of results of all frameworks. -/
  totalFound : Nat := 0
  deriving DecidableEq, Repr

end ApiReference
