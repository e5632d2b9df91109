import ApiReference.Declaration.Basic
import ApiReference.Text.Lowercase

/-!
# Searching definitions

A definition is found if every word of the query occurs in its name or signature. What is found is
ranked by score; equal scores keep the order of declaration.
-/

namespace ApiReference.Declaration

structure Hit where
  definition : Definition
  score : Int
  deriving DecidableEq, Repr

/-- How well the name of a definition fits a query in lower case. -/
def nameScore (name query : Text) : Int :=
  if name == query then 100
  else if Text.startsWith query name then 80
  else if Text.occursIn query name then 60
  else 0

/-- How well a definition fits a query in lower case. -/
def score (d : Definition) (query : Text) : Int :=
  nameScore (Text.lower d.name) query +
    (match d.kind with
      | .function => 15
      | .interface => 10
      | _ => 0) +
    (if d.description.isSome then 10 else 0) +
    (if d.examples.isEmpty then 0 else 5) -
    (if d.deprecated then 20 else 0)

/-- Puts an item before the first one that does not score higher. -/
def insertRanked {α : Type} (score : α → Int) (a : α) : List α → List α
  | [] => [a]
  | b :: bs => if score b ≤ score a then a :: b :: bs else b :: insertRanked score a bs

/-- Items by descending score; equal scores keep their order. -/
def rank {α : Type} (score : α → Int) : List α → List α
  | [] => []
  | a :: as => insertRanked score a (rank score as)

/-- Whether every term occurs in the name or the signature of a definition, in any letter case. -/
def hasAllTerms (terms : List Text) (d : Definition) : Bool :=
  let name := Text.lower d.name
  let signature := Text.lower d.signature
  terms.all fun term => Text.occursIn term name || Text.occursIn term signature

/-- All hits for a query, best first. A query without words finds nothing. -/
def ranking (definitions : List Definition) (query : Text) : List Hit :=
  let query := Text.lower (Text.trim query)
  let terms := Text.words query
  if terms.isEmpty then []
  else rank Hit.score
    ((definitions.filter (hasAllTerms terms)).map fun d => ⟨d, score d query⟩)

def search (definitions : List Definition) (query : Text) (limit : Nat) : List Hit :=
  (ranking definitions query).take limit

end ApiReference.Declaration
