import ApiReference.Settings.Basic
import ApiReference.Toml.Printer
import ApiReference.Toml.Reader

/-!
# Settings as a document

Settings are a table of tables. A table may also be written as an array of its values in order. What
is left out has its default, what is not known is passed over.
-/

namespace ApiReference.Settings
open ApiReference.Toml (Value Table)

/-- How a value is understood where a number or a text is wanted. -/
structure Convention where
  number? : Value → Option Nat
  text? : Value → Option Text
  /-- Whether a point in time counts as a table without entries. -/
  datetimeIsTable : Bool

/-- The convention that converts nothing. -/
def Convention.strict : Convention where
  number?
    | .integer n => if n < 0 then none else some n.toNat
    | _ => none
  text?
    | .string t => some t
    | _ => none
  datetimeIsTable := true

namespace Convention

def texts? (c : Convention) : Value → Option (List Text)
  | .array items => items.mapM c.text?
  | _ => none

/-- The fields of a table by name, or of an array by position. -/
def fields? (c : Convention) : Value → Option (Nat → Text → Option Value)
  | .table entries => some fun _ key => Table.get? entries key
  | .array items => some fun i _ => items[i]?
  | .datetime _ => if c.datetimeIsTable then some fun _ _ => none else none
  | _ => none

end Convention

/-- A field that has a default. -/
def field {α : Type} (fields : Nat → Text → Option Value) (i : Nat) (key : String)
    (convert : Value → Option α) (default : α) : Option α :=
  match fields i key.toList with
  | some v => convert v
  | none => some default

/-- A field without a default. -/
def required {α : Type} (fields : Nat → Text → Option Value) (i : Nat) (key : String)
    (convert : Value → Option α) : Option α :=
  (fields i key.toList).bind convert

def parserOf? (c : Convention) (v : Value) : Option ParserSettings := do
  let f ← c.fields? v
  return ⟨← field f 0 "cache_capacity" c.number? 50⟩

def fetchOf? (c : Convention) (v : Value) : Option FetchSettings := do
  let f ← c.fields? v
  let base : FetchSettings := {}
  return {
    registryUrl := ← field f 0 "registry_url" c.text? base.registryUrl
    cdnUrl := ← field f 1 "cdn_url" c.text? base.cdnUrl
    timeoutSeconds := ← field f 2 "timeout_secs" c.number? base.timeoutSeconds
    maxCachedResponses := ← field f 3 "max_cached_responses" c.number? base.maxCachedResponses
    userAgent := ← field f 4 "user_agent" c.text? base.userAgent }

def contextOf? (c : Convention) (v : Value) : Option ContextSettings := do
  let f ← c.fields? v
  let base : ContextSettings := {}
  return {
    defaultMaxExamples := ← field f 0 "default_max_examples" c.number? base.defaultMaxExamples
    maxResponseChars := ← field f 1 "max_response_chars" c.number? base.maxResponseChars
    relatedTypeMaxChars := ← field f 2 "related_type_max_chars" c.number? base.relatedTypeMaxChars
    similarApiLimit := ← field f 3 "similar_api_limit" c.number? base.similarApiLimit }

def searchOf? (c : Convention) (v : Value) : Option SearchSettings := do
  let f ← c.fields? v
  let base : SearchSettings := {}
  return {
    defaultFrameworks := ← field f 0 "default_frameworks" c.texts? base.defaultFrameworks
    defaultLimit := ← field f 1 "default_limit" c.number? base.defaultLimit }

def frameworkOf? (c : Convention) (v : Value) : Option Framework := do
  let f ← c.fields? v
  return {
    key := ← required f 0 "key" c.text?
    packages := ← required f 1 "packages" c.texts?
    aliases := ← field f 2 "aliases" c.texts? []
    apiPatterns := ← field f 3 "api_patterns" c.texts? [] }

def frameworksOf? (c : Convention) : Value → Option (List Framework)
  | .array items => items.mapM (frameworkOf? c)
  | _ => none

def ofTable? (c : Convention) (t : Table) : Option Settings := do
  let f := fun (_ : Nat) key => Table.get? t key
  return {
    parser := ← field f 0 "parser" (parserOf? c) {}
    fetch := ← field f 1 "fetch" (fetchOf? c) {}
    context := ← field f 2 "context" (contextOf? c) {}
    search := ← field f 3 "search" (searchOf? c) {}
    frameworks := ← field f 4 "frameworks" (frameworksOf? c) [] }

/-- The settings that a document stands for, if it and they follow all rules. -/
def ofText (t : Text) : Except Problem Settings :=
  match (Toml.read? t).bind (ofTable? .strict) with
  | some s => s.validated
  | none => .error .unreadable

def number (n : Nat) : Value := .integer n

def texts (ts : List Text) : Value := .array (ts.map .string)

def pair (key : String) (v : Value) : Text × Value := (key.toList, v)

def frameworkPart (f : Framework) : Toml.Part :=
  .item "frameworks".toList
    [pair "key" (.string f.key), pair "packages" (texts f.packages),
     pair "aliases" (texts f.aliases),
     pair "api_patterns" (texts f.apiPatterns)]

/-- The parts of the document: an empty list of frameworks stands first, frameworks stand last. -/
def parts (s : Settings) : List Toml.Part :=
  (if s.frameworks.isEmpty then [.top [pair "frameworks" (.array [])]] else []) ++
  [.table "parser".toList [pair "cache_capacity" (number s.parser.cacheCapacity)],
   .table "fetch".toList
    [pair "registry_url" (.string s.fetch.registryUrl), pair "cdn_url" (.string s.fetch.cdnUrl),
     pair "timeout_secs" (number s.fetch.timeoutSeconds),
     pair "max_cached_responses" (number s.fetch.maxCachedResponses),
     pair "user_agent" (.string s.fetch.userAgent)],
   .table "context".toList
    [pair "default_max_examples" (number s.context.defaultMaxExamples),
     pair "max_response_chars" (number s.context.maxResponseChars),
     pair "related_type_max_chars" (number s.context.relatedTypeMaxChars),
     pair "similar_api_limit" (number s.context.similarApiLimit)],
   .table "search".toList
    [pair "default_frameworks" (texts s.search.defaultFrameworks),
     pair "default_limit" (number s.search.defaultLimit)]] ++
  s.frameworks.map frameworkPart

def numbers (s : Settings) : List Nat :=
  [s.parser.cacheCapacity, s.fetch.timeoutSeconds, s.fetch.maxCachedResponses,
   s.context.defaultMaxExamples, s.context.maxResponseChars, s.context.relatedTypeMaxChars,
   s.context.similarApiLimit, s.search.defaultLimit]

/-- The settings as a document, which holds no number of more than 63 bits. -/
def toText (s : Settings) : Except Problem Text :=
  if s.numbers.all (· < Nat.pow 2 63) then .ok (Toml.write s.parts) else .error .unwritable

end ApiReference.Settings
