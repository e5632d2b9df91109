import ApiReference.Json.Basic
import ApiReference.Service.Request

/-!
# The tools and their arguments

Two tools take a query and options by name. An option may be missing or null; a value of the wrong
kind makes the arguments unusable, and unknown names are passed over.
-/

namespace ApiReference.ToolServer
open ApiReference.Json (Value)

inductive Tool where
  | context
  | search
  deriving DecidableEq, Repr

def Tool.all : List Tool := [.context, .search]

def Tool.name : Tool → Text
  | context => "get_api_context".toList
  | search => "search_apis".toList

def Tool.ofName? (name : Text) : Option Tool := Tool.all.find? fun t => t.name == name

def Tool.description : Tool → String
  | context =>
    "Get the precise TypeScript signature of a JavaScript/TypeScript framework API from a natural " ++
    "language query such as \"react useEffect cleanup\" or \"zod v3 object\". Returns parameters, " ++
    "return type, overloads, related types, usage examples and deprecation notes."
  | search =>
    "Search the TypeScript declarations of one or more frameworks for APIs whose name or signature " ++
    "contains every query term. Results from all frameworks are ranked together."

/-- An argument that may be missing or null. -/
def optional? {α : Type} (arguments : Value) (key : String) (convert : Value → Option α) :
    Option (Option α) :=
  match arguments.field? key.toList with
  | none | some .null => some none
  | some v => (convert v).map some

/-- A whole number of at most 64 bits. -/
def number? (v : Value) : Option Nat := v.asNat?.filter fun n => n < Nat.pow 2 64

def texts? (v : Value) : Option (List Text) := v.asArray?.bind fun vs => vs.mapM Value.asText?

def contextRequest? (arguments : Value) : Option ContextRequest := do
  let query ← (arguments.field? "query".toList).bind Value.asText?
  return {
    query := query
    framework := ← optional? arguments "framework" Value.asText?
    version := ← optional? arguments "version" Value.asText?
    includeExamples := ← optional? arguments "include_examples" Value.asBool?
    maxExamples := ← optional? arguments "max_examples" number? }

def searchRequest? (arguments : Value) : Option SearchRequest := do
  let query ← (arguments.field? "query".toList).bind Value.asText?
  return {
    query := query
    frameworks := ← optional? arguments "frameworks" texts?
    limit := ← optional? arguments "limit" number? }

def property (name description : String) (type : List (String × Value)) : String × Value :=
  (name, .ofFields (("description", .ofString description) :: type))

def typeNamed (name : String) : List (String × Value) := [("type", .ofString name)]

/-- Marks a type as one that null belongs to. -/
def nullable (type : List (String × Value)) : List (String × Value) :=
  type ++ [("nullable", .bool true)]

/-- The whole numbers that are not negative. -/
def countType : List (String × Value) :=
  typeNamed "integer" ++ [("format", .ofString "uint"), ("minimum", .ofNat 0)]

def textsType : List (String × Value) :=
  typeNamed "array" ++ [("items", .ofFields (typeNamed "string"))]

def Tool.properties : Tool → List (String × Value)
  | context =>
    [property "query" "Query naming a framework and an API, e.g. \"react useEffect cleanup\""
      (typeNamed "string"),
     property "framework" "Framework key or npm package name; overrides detection from the query"
      (nullable (typeNamed "string")),
     property "version" "Package version or dist-tag; overrides a version in the query"
      (nullable (typeNamed "string")),
     property "include_examples" "Include usage examples (default true)"
      (nullable (typeNamed "boolean")),
     property "max_examples" "Maximum number of usage examples (default 2)" (nullable countType)]
  | search =>
    [property "query" "Search terms; every term must appear in the API name or signature"
      (typeNamed "string"),
     property "frameworks"
      ("Framework keys or npm package names to search. Omit to search the configured " ++
        "defaults.")
      (nullable textsType),
     property "limit" "Maximum number of results (default 10)" (nullable countType)]

/-- The name of the type of a tool's arguments. -/
def Tool.argumentsTitle : Tool → String
  | context => "GetApiContextInput"
  | search => "SearchApisInput"

def Tool.schema (t : Tool) : Value :=
  .ofFields
    [("$schema", .ofString "https://json-schema.org/draft/2020-12/schema"),
     ("title", .ofString t.argumentsTitle),
     ("description", .string ("Request schema for the ".toList ++ t.name ++ " MCP tool".toList)),
     ("type", .ofString "object"), ("properties", .ofFields t.properties),
     ("required", .ofTexts ["query".toList])]

/-- A tool as the server lists it. -/
def Tool.toJson (t : Tool) : Value :=
  .ofFields
    [("name", .string t.name), ("description", .ofString t.description), ("inputSchema", t.schema)]

end ApiReference.ToolServer
