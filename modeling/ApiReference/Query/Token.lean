import ApiReference.Text.Lowercase
import ApiReference.Query.Version

/-!
# Tokens of a query

The words of a query without the punctuation around them. A package pinned to a version, such as
`react@18.2.0`, is two tokens.
-/

namespace ApiReference.Query

/-- A word of a query as written and in lower case. -/
structure Token where
  written : Text
  lower : Text
  deriving DecidableEq, Repr

namespace Token

def ofText (t : Text) : Token := ⟨t, Text.lower t⟩

/-- Words that name neither a framework nor a concept. -/
def stopWords : List Text :=
  ["in", "for", "with", "the", "a", "an", "to", "how", "what", "why", "when", "using",
   "use"].map String.toList

/-- Words that say what the developer wants to do. -/
def contextWords : List Text :=
  ["hook", "hooks", "component", "components", "server", "client", "async", "await", "cleanup",
   "effect", "effects", "state", "props", "types", "typescript", "error", "errors", "middleware",
   "routing", "router", "route", "form", "forms", "validation", "schema", "query", "mutation",
   "cache", "caching", "ssr", "streaming", "auth", "authentication", "testing", "test", "config",
   "configuration", "lifecycle", "context", "ref", "refs", "event", "events", "subscription",
   "performance", "memo", "suspense", "transition", "api", "handler", "request",
   "response"].map String.toList

def isStopWord (t : Token) : Bool := stopWords.contains t.lower

def isContextWord (t : Token) : Bool := contextWords.contains t.lower

/-- `18`, `v19.0.0`, `3.0.0-beta.1`. -/
def isVersion (t : Token) : Bool := Version.token.accepts t.lower

/-- Characters that a token may begin or end with. -/
def isTokenChar (c : Char) : Bool :=
  Text.isAlphanumeric c || c == '@' || c == '/' || c == '-' || c == '_' || c == '$' || c == '.'

/-- A word without the punctuation around it and without dots and hyphens at its end. -/
def bare (word : Text) : Text :=
  Text.trimEndOf (fun c => c == '.' || c == '-') (Text.trimOf (fun c => !isTokenChar c) word)

/-- The name and the version of a pinned package; an at sign in first place pins nothing. -/
def splitPinned? (word : Text) : Option (Text × Text) :=
  match Text.splitLast (· == '@') word with
  | some (name, version) =>
    if name.isEmpty then none
    else if version.head?.any Text.isAsciiDigit then some (name, version) else none
  | none => none

def ofWord (word : Text) : List Token :=
  let word := bare word
  if word.isEmpty then []
  else match splitPinned? word with
    | some (name, version) => [ofText name, ofText version]
    | none => [ofText word]

end Token

def tokens (query : Text) : List Token := (Text.words query).flatMap Token.ofWord

/-- The indices, counted from the given one, of each word "version" directly before a number. -/
def versionWordIndices : Nat → List Token → List Nat
  | i, first :: second :: rest =>
    let more := versionWordIndices (i + 1) (second :: rest)
    if first.lower == "version".toList && second.lower.head?.any Text.isAsciiDigit &&
        second.isVersion
    then i :: more else more
  | _, _ => []

end ApiReference.Query
