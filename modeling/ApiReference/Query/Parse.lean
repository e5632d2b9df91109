import ApiReference.Query.Detection

/-!
# Reading a query

The concept of a query is what is left of it when the words that name the framework, the version
and the stop words are taken away; if nothing is left, it is an identifier found in the raw text,
or the whole query.
-/

namespace ApiReference.Query
open ApiReference.Text (Pattern)

/-- `useState` in lower case. -/
def hookName : Pattern := .seq (.literal "use".toList) (.some (.one Char.isLower))

/-- The beginning of an identifier with a capital inside. -/
def camelStart : Pattern := .seq (.some (.one Char.isLower)) (.one Char.isUpper)

/-- A whole word with a capital inside. -/
def camelWord : Pattern :=
  .all [.boundary, .some (.one Char.isLower), .one Char.isUpper, .many (.one Char.isAlphanum),
    .boundary]

/-- The lower-case tokens of a query with single spaces between them. -/
def normalize (tokens : List Token) : Text := Text.join [' '] (tokens.map Token.lower)

/-- Names that refer to the detected framework and so are no concepts. -/
def frameworkWords (catalog : Catalog) (target : Target) (normalized : Text) : List Text :=
  target.package ::
    match catalog.get? target.framework with
    | none => []
    | some f =>
      f.key :: f.compactKey :: f.packages.map Text.lower ++
        f.aliases.flatMap fun a =>
          if !isPhrase a then [a]
          else if Text.occursIn a normalized then Text.splitOn (· == ' ') a
          else []

def conceptTokens (catalog : Catalog) (tokens : List Token) (detected : Option Detection)
    (normalized : Text) : List Token :=
  let consumed := (detected.map Detection.consumed).getD []
  let words := (detected.map fun d => frameworkWords catalog d.target normalized).getD []
  let versionWords := versionWordIndices 0 tokens
  ((indexed tokens).filter fun (i, t) =>
    !consumed.contains i && !versionWords.contains i && !words.contains t.lower &&
      isContentToken t).map Prod.snd

/-- The concept of a query, in lower case. A first word that is an identifier stands alone. -/
def concept (catalog : Catalog) (query : Text) (tokens : List Token)
    (detected : Option Detection) (normalized : Text) : Text :=
  match conceptTokens catalog tokens detected normalized with
  | first :: more =>
    if hookName.accepts first.lower || (camelStart.atStart first.written).isSome
    then first.lower
    else Text.join [' '] ((first :: more).map Token.lower)
  | [] =>
    match camelWord.find query with
    | some h => Text.lower h.text
    | none => normalized

/-- The context words of a query, each once, in order of first appearance. -/
def contextWords (tokens : List Token) : List Text :=
  (tokens.filter Token.isContextWord).foldl
    (fun found t => if found.contains t.lower then found else found ++ [t.lower]) []

/-- Reads a query; every text is one. -/
def parse (catalog : Catalog) (query : Text) : Parsed :=
  let tokens := tokens query
  let normalized := normalize tokens
  let detected := detect catalog tokens normalized
  { query := query
    target := detected.map Detection.target
    concept := concept catalog query tokens detected normalized
    version := Version.extract? query
    contextWords := contextWords tokens }

end ApiReference.Query
