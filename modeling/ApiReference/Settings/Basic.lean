import ApiReference.Catalog.Builtin
import ApiReference.Failure

/-!
# Settings

All that can be configured, with the values that hold unless configured otherwise, and the rules
that values must keep.
-/

namespace ApiReference

structure ParserSettings where
  /-- The number of readings kept. -/
  cacheCapacity : Nat := 50
  deriving DecidableEq, Repr

structure FetchSettings where
  registryUrl : Text := "https://registry.npmjs.org".toList
  cdnUrl : Text := "https://unpkg.com".toList
  timeoutSeconds : Nat := 15
  maxCachedResponses : Nat := 500
  userAgent : Text := "augments/0.1.0".toList
  deriving DecidableEq, Repr

structure ContextSettings where
  /-- The number of examples unless the request says otherwise. -/
  defaultMaxExamples : Nat := 2
  /-- The length of a rendered answer in characters. -/
  maxResponseChars : Nat := 8000
  relatedTypeMaxChars : Nat := 300
  /-- The number of similar names suggested where nothing is found. -/
  similarApiLimit : Nat := 5
  deriving DecidableEq, Repr

structure SearchSettings where
  /-- The frameworks searched where neither request nor query names one. -/
  defaultFrameworks : List Text := ["react", "vue", "next", "express"].map String.toList
  defaultLimit : Nat := 10
  deriving DecidableEq, Repr

structure Settings where
  parser : ParserSettings := {}
  fetch : FetchSettings := {}
  context : ContextSettings := {}
  search : SearchSettings := {}
  /-- Frameworks that extend the built-in catalog. -/
  frameworks : List Framework := []
  deriving DecidableEq, Repr

namespace Settings

/-- Why settings cannot be had or used. -/
inductive Problem where
  /-- The document does not follow the format or holds a value of the wrong kind. -/
  | unreadable
  /-- The file does not follow the format. -/
  | unreadableFile
  /-- A value of the wrong kind came out of all sources together. -/
  | wrongKind
  | zero (field : Text)
  | blankKey
  | noPackages (key : Text)
  /-- A number is too large to be written. -/
  | unwritable
  deriving DecidableEq, Repr

def Problem.details : Problem → Text
  | unreadable => "Failed to parse TOML".toList
  | unreadableFile => "Failed to build config".toList
  | wrongKind => "Failed to deserialize config".toList
  | zero field => field ++ " must be at least 1".toList
  | blankKey => "frameworks entries need a non-empty key".toList
  | noPackages key =>
    "framework '".toList ++ key ++ "' must list at least one package".toList
  | unwritable => "Failed to serialize config: out-of-range value for u64 type".toList

def Problem.failure (p : Problem) : Failure := .configuration p.details

/-- The numbers that must not be zero, in the order in which they are checked. -/
def positiveFields (s : Settings) : List (Text × Nat) :=
  [("parser.cache_capacity".toList, s.parser.cacheCapacity),
   ("fetch.max_cached_responses".toList, s.fetch.maxCachedResponses),
   ("fetch.timeout_secs".toList, s.fetch.timeoutSeconds),
   ("context.max_response_chars".toList, s.context.maxResponseChars),
   ("search.default_limit".toList, s.search.defaultLimit)]

/-- What is wrong with a framework entry. -/
def frameworkProblem? (f : Framework) : Option Problem :=
  if (Text.trim f.key).isEmpty then some .blankKey
  else if f.packages.isEmpty then some (.noPackages f.key)
  else none

/-- The first rule that settings break. -/
def problem? (s : Settings) : Option Problem :=
  ((s.positiveFields.find? fun (_, n) => n == 0).map fun (field, _) => .zero field) <|>
    s.frameworks.findSome? frameworkProblem?

/-- Settings that keep all rules. -/
def validated (s : Settings) : Except Problem Settings :=
  match s.problem? with
  | some p => .error p
  | none => .ok s

def catalog (s : Settings) : Catalog := Catalog.builtin.extend s.frameworks

end Settings
end ApiReference
