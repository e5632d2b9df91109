import ApiReference.Catalog.Basic
import ApiReference.Query.Basic
import ApiReference.Query.Token
import ApiReference.Text.EditDistance

/-!
# Which framework a query is about

Detection runs in strict order of precedence and the first step that finds something wins: a
package name, a framework key, another name, an identifier of one framework only, a near miss of a
key, and last any token that looks like a package name.
-/

namespace ApiReference.Query
open ApiReference.Text (Pattern isAsciiDigit)

/-- The finding that a step makes for a catalog entry. -/
def Detection.ofFramework (f : Framework) (step : Step) (consumed : List Nat) : Detection :=
  ⟨⟨f.key, f.primaryPackage, step⟩, consumed⟩

def indexed (tokens : List Token) : List (Nat × Token) := (List.range tokens.length).zip tokens

/-- The first token that is a package of the catalog; the package is spelled as in the query, in
lower case. -/
def detectPackage (catalog : Catalog) (tokens : List Token) : Option Detection :=
  (indexed tokens).findSome? fun (i, t) =>
    (catalog.ownerOf? t.lower).map fun f => ⟨⟨f.key, t.lower, .packageName⟩, [i]⟩

/-- The first token that is a key, with or without its hyphens. -/
def detectKey (catalog : Catalog) (tokens : List Token) : Option Detection :=
  (indexed tokens).findSome? fun (i, t) =>
    (catalog.entries.find? fun f => t.lower == f.key || t.lower == f.compactKey).map fun f =>
      .ofFramework f .frameworkKey [i]

/-- A name of several words. -/
def isPhrase (name : Text) : Bool := name.contains ' '

/-- The first entry with a phrase that occurs in the query; every token that is a word of the phrase
counts as naming the framework. -/
def detectPhrase (catalog : Catalog) (tokens : List Token) (normalized : Text) : Option Detection :=
  catalog.entries.findSome? fun f =>
    (f.aliases.find? fun a => isPhrase a && Text.occursIn a normalized).map fun a =>
      let words := Text.splitOn (· == ' ') a
      .ofFramework f .aliasName
        (((indexed tokens).filter fun (_, t) => words.contains t.lower).map Prod.fst)

/-- The first token that is a one-word alias. -/
def detectAlias (catalog : Catalog) (tokens : List Token) : Option Detection :=
  (indexed tokens).findSome? fun (i, t) =>
    (catalog.entries.find? fun f => f.aliases.any fun a => !isPhrase a && a == t.lower).map fun f =>
      .ofFramework f .aliasName [i]

/-- Tokens that may be taken for an identifier: long enough, or named like a hook. -/
def maybeIdentifier (t : Token) : Bool :=
  6 ≤ t.lower.length || Text.startsWith "use".toList t.lower

/-- The first token that is an API pattern of exactly one framework. Such a token stays part of the
concept. -/
def detectApi (catalog : Catalog) (tokens : List Token) : Option Detection :=
  (tokens.filter maybeIdentifier).findSome? fun t =>
    match catalog.keysForApi t.lower with
    | [key] => (catalog.get? key).map fun f => .ofFramework f .apiPattern []
    | _ => none

/-- The edit distance within which a token still stands for a key: three tenths of the key's
length, rounded up. -/
def tolerance (key : Text) : Nat := (3 * key.length + 9) / 10

/-- Neither a stop word nor a version. -/
def isContentToken (t : Token) : Bool := !t.isStopWord && !t.isVersion

/-- The first token near some key. -/
def detectFuzzy (catalog : Catalog) (tokens : List Token) : Option Detection :=
  ((indexed tokens).filter fun (_, t) => 3 ≤ t.lower.length && isContentToken t).findSome?
    fun (i, t) =>
      (catalog.entries.find? fun f =>
        let distance := Text.editDistance t.lower f.key
        0 < distance && distance ≤ tolerance f.key).map fun f => .ofFramework f .fuzzy [i]

def isPackageStart (c : Char) : Bool := c.isLower || isAsciiDigit c

def isPackageChar (c : Char) : Bool :=
  isPackageStart c || c == '.' || c == '_' || c == '~' || c == '-'

/-- The form of a package name, with or without a scope. -/
def packageName : Pattern :=
  let name := Pattern.seq (.one isPackageStart) (.many (.one isPackageChar))
  .seq (.opt (.all [.one (· == '@'), name, .one (· == '/')])) name

/-- The first token that could be a package name. -/
def detectDynamic (tokens : List Token) : Option Detection :=
  (indexed tokens).findSome? fun (i, t) =>
    if 2 ≤ t.lower.length && isContentToken t && packageName.accepts t.lower
    then some ⟨⟨t.lower, t.lower, .dynamic⟩, [i]⟩
    else none

/-- The framework a query is about, by the first step that finds one. -/
def detect (catalog : Catalog) (tokens : List Token) (normalized : Text) : Option Detection :=
  detectPackage catalog tokens
    <|> detectKey catalog tokens
    <|> detectPhrase catalog tokens normalized
    <|> detectAlias catalog tokens
    <|> detectApi catalog tokens
    <|> detectFuzzy catalog tokens
    <|> detectDynamic tokens

end ApiReference.Query
