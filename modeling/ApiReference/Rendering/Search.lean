import ApiReference.Rendering.Context

/-!
# The page of a search

The results of a search, best first, until seven tenths of the budget are used.
-/

namespace ApiReference.Rendering

/-- An integer in decimal notation. -/
def integerText (n : Int) : Text :=
  if n < 0 then '-' :: Text.ofNat n.natAbs else Text.ofNat n.natAbs

def resultSection (limits : Limits) (rank : Nat) (r : SearchResult) (p : Page) : Page :=
  let deprecated := if r.deprecated then " deprecated".toList else []
  let title := Text.ofNat rank ++ ". ".toList ++ inlineCode r.name ++ " [".toList ++ r.kind.name ++
    deprecated ++ "] ".toList ++ packageAt r.package r.version ++ " (score ".toList ++
    integerText r.score ++ [')']
  let p := (p.line title).codeBlock declarationLanguage (truncate limits.signatureChars r.signature)
  let p :=
    match r.description.bind fun d => (Text.lines d).head? with
    | some summary => p.line summary
    | none => p
  p.gap

/-- The results from a rank on, as many as there is room for. -/
def resultSections (limits : Limits) : Nat → Page → List SearchResult → Page
  | _, p, [] => p
  | rank, p, r :: rs =>
    if p.past .sevenTenths then p.omitted (rs.length + 1) "results"
    else resultSections limits (rank + 1) (resultSection limits rank r p) rs

/-- What was searched and how much was found. -/
def searchHeading (r : SearchResponse) (p : Page) : Page :=
  let searched :=
    if r.frameworksSearched.isEmpty then "none".toList
    else Text.join ", ".toList r.frameworksSearched
  let summary := "Searched: ".toList ++ searched ++ " (".toList ++ Text.ofNat r.totalFound ++
    " found, showing ".toList ++ Text.ofNat r.results.length ++ [')']
  ((p.line ("# API search: \"".toList ++ r.query ++ ['"'])).line summary).gap

/-- The page of a response before it is cut to its budget. -/
def searchPage (limits : Limits) (r : SearchResponse) : Page :=
  let p := searchHeading r (Page.empty limits.chars)
  if r.results.isEmpty then p.line "No matching APIs.".toList
  else resultSections limits 1 p r.results

def searchText (limits : Limits) (r : SearchResponse) : Text := (searchPage limits r).finish

end ApiReference.Rendering
