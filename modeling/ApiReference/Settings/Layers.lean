import ApiReference.Settings.Document
import ApiReference.Text.Lowercase

/-!
# Settings from several sources

Settings come, in rising order of precedence, from a base layer, a file and the environment. Keys
are compared in lower case, a table from a higher layer is merged into the one below, and a value is
converted to the kind that a setting wants.
-/

namespace ApiReference.Settings
open ApiReference.Toml (Value Table)
open ApiReference.Number (Binary64)

/-- Puts a value under a key, in place of the one there. -/
def put (key : Text) (v : Value) : Table → Table
  | [] => [(key, v)]
  | (k, w) :: entries => if k = key then (k, v) :: entries else (k, w) :: put key v entries

/-- The entries of a table; any other value has none. -/
def entriesOf : Value → Table
  | .table entries => entries
  | _ => []

mutual
/-- What stands under a key once a value has been set there: tables are merged, everything else is
replaced. -/
def merge (existing : Option Value) : Value → Value
  | .table entries => mergeEntries (existing.getD (.table [])) entries
  | v => v

/-- Merges entries one by one; the first makes a table of what was none. -/
def mergeEntries (target : Value) : List (Text × Value) → Value
  | [] => target
  | (key, v) :: entries =>
    let table := entriesOf target
    mergeEntries (.table (put key (merge (Table.get? table key) v) table)) entries
end

/-- Sets the value at a path, making tables on the way. -/
def setAt : List Text → Value → Table → Table
  | [], _, t => t
  | [key], v, t => put key (merge (Table.get? t key) v) t
  | key :: path, v, t =>
    put key (.table (setAt path v (entriesOf ((Table.get? t key).getD (.table []))))) t

/-- Characters of a key in a path. -/
def isPathChar (c : Char) : Bool := c.isAlphanum || c == '_' || c == '-' || c == ' '

/-- The keys between the dots of a name; a name that does not read so is a single key. -/
def pathOf (name : Text) : List Text :=
  let keys := Text.splitOn (· == '.') name
  if keys.all fun k => !k.isEmpty && k.all isPathChar then keys else [name]

/-- Sets all entries of a layer, whose names are paths. -/
def overlay (layer : Table) (t : Table) : Table :=
  layer.foldl (fun t (name, v) => setAt (pathOf name) v t) t

/-- Whether a text comes before another in the order of code points. -/
def precedes : Text → Text → Bool
  | [], b => !b.isEmpty
  | _ :: _, [] => false
  | a :: as, b :: bs => a < b || (a == b && precedes as bs)

/-- Puts an entry before the first one whose key does not precede its own. -/
def insertByKey (entry : Text × Value) : Table → Table
  | [] => [entry]
  | e :: es => if precedes e.1 entry.1 then e :: insertByKey entry es else entry :: e :: es

/-- Entries with keys in lower case; of keys that differ only in case the last in the order of code
points counts. -/
def lowerKeys (entries : Table) : Table :=
  (entries.foldr insertByKey []).foldl (fun t (key, v) => put (Text.lower key) v t) []

mutual
/-- A value as a layer holds it: keys in lower case, points in time as text. -/
def layered : Value → Value
  | .table entries => .table (lowerKeys (layeredEntries entries))
  | .array items => .array (layeredItems items)
  | .datetime d => .string d.toText
  | v => v

def layeredEntries : List (Text × Value) → List (Text × Value)
  | [] => []
  | (key, v) :: entries => (key, layered v) :: layeredEntries entries

def layeredItems : List Value → List Value
  | [] => []
  | v :: vs => layered v :: layeredItems vs
end

/-- The settings that a table without entries leaves as they are. -/
def baseLayer : Table :=
  let s : Settings := {}
  [pair "parser.cache_capacity" (number s.parser.cacheCapacity),
   pair "fetch.registry_url" (.string s.fetch.registryUrl),
   pair "fetch.cdn_url" (.string s.fetch.cdnUrl),
   pair "fetch.timeout_secs" (number s.fetch.timeoutSeconds),
   pair "fetch.max_cached_responses" (number s.fetch.maxCachedResponses),
   pair "context.max_response_chars" (number s.context.maxResponseChars),
   pair "search.default_limit" (number s.search.defaultLimit)]

def fileLayer (entries : Table) : Table := lowerKeys (layeredEntries entries)

/-- The beginning of the names of variables that are settings. -/
def variableBeginning : Text := "augments__".toList

/-- Dots in place of double underscores. -/
def dotted : Text → Text
  | '_' :: '_' :: rest => '.' :: dotted rest
  | c :: rest => c :: dotted rest
  | [] => []

/-- The value of a variable: a truth value or a number if it reads as one, a list of texts between
commas for the one setting that is a list, else the text. -/
def variableValue (name t : Text) : Value :=
  let word := Text.lower t
  if word == "true".toList then .boolean true
  else if word == "false".toList then .boolean false
  else match Number.integer? 64 t, Binary64.read? t with
    | some n, _ => .integer n
    | none, some x => .float x
    | none, none =>
      if name == "search.default_frameworks".toList then
        .array ((Text.splitOn (· == ',') t).map .string)
      else .string t

/-- The layer of the variables that are settings. -/
def environmentLayer (environment : List (Text × Text)) : Table :=
  environment.filterMap fun (name, t) =>
    (Text.stripStart variableBeginning (Text.lower name)).map fun name =>
      let name := dotted name
      (name, variableValue name t)

/-- The layer of the registry that the package manager is configured to use. -/
def registryLayer (environment : List (Text × Text)) : Table :=
  match environment.find? fun v => v.1 == "NPM_CONFIG_REGISTRY".toList with
  | some (_, url) => [pair "fetch.registry_url" (.string (Text.trimEndOf (· == '/') url))]
  | none => []

/-- The variables of the single settings, for surroundings that cannot list their variables. -/
def knownVariables : List Text :=
  "NPM_CONFIG_REGISTRY".toList ::
    ["PARSER__CACHE_CAPACITY", "FETCH__REGISTRY_URL", "FETCH__CDN_URL", "FETCH__TIMEOUT_SECS",
     "FETCH__MAX_CACHED_RESPONSES", "FETCH__USER_AGENT", "CONTEXT__DEFAULT_MAX_EXAMPLES",
     "CONTEXT__MAX_RESPONSE_CHARS", "CONTEXT__RELATED_TYPE_MAX_CHARS",
     "CONTEXT__SIMILAR_API_LIMIT", "SEARCH__DEFAULT_FRAMEWORKS", "SEARCH__DEFAULT_LIMIT"].map
      fun name => "AUGMENTS__".toList ++ name.toList

/-- The number that a text stands for; words for yes and no stand for one and zero. -/
def numberOfText? (t : Text) : Option Nat :=
  let word := Text.lower t
  if word == "true".toList || word == "on".toList || word == "yes".toList then some 1
  else if word == "false".toList || word == "off".toList || word == "no".toList then some 0
  else Number.natural? 64 t

/-- The convention that converts between texts, numbers and truth values. -/
def Convention.converting : Convention where
  number?
    | .integer n => if n < 0 then none else some n.toNat
    | .string t => numberOfText? t
    | .boolean b => some (if b then 1 else 0)
    | .float x => some (x.toBounded 64)
    | _ => none
  text?
    | .string t => some t
    | .boolean b => some (if b then "true".toList else "false".toList)
    | .integer n => some (Toml.writeInteger n)
    | .float x => some x.toText
    | _ => none
  datetimeIsTable := false

/-- The settings from a file, if there is one, and the environment. -/
def load (file : Option Text) (environment : List (Text × Text)) : Except Problem Settings := do
  let fileEntries ← match file with
    | none => pure []
    | some t => match Toml.read? t with
      | some entries => pure (fileLayer entries)
      | none => throw .unreadableFile
  let layers := [baseLayer, fileEntries, environmentLayer environment, registryLayer environment]
  match ofTable? .converting (layers.foldl (fun t layer => overlay layer t) []) with
  | some s => s.validated
  | none => throw .wrongKind

end ApiReference.Settings
