import ApiReference.Json.Basic
import ApiReference.Query.Basic
import ApiReference.Service.Response

/-!
# Responses as JSON

The fields of a response in a fixed order. What is missing is null, but examples leave it out.
-/

namespace ApiReference
open ApiReference.Declaration (ApiSignature Parameter RelatedType)
open ApiReference.Json (Value)
open ApiReference.Package (CodeExample)

def optionalText (t : Option Text) : Value := .ofOption .string t

def parameterJson (p : Parameter) : Value :=
  .ofFields
    [("name", .string p.name), ("type_annotation", .string p.type), ("optional", .bool p.optional),
     ("rest", .bool p.rest), ("default_value", optionalText p.defaultValue),
     ("description", optionalText p.description)]

def relatedTypeJson (r : RelatedType) : Value :=
  .ofFields [("name", .string r.name), ("signature", .string r.signature)]

def signatureJson (s : ApiSignature) : Value :=
  .ofFields
    [("name", .string s.name), ("kind", .string s.kind.name), ("signature", .string s.signature),
     ("description", optionalText s.description),
     ("parameters", .array (s.parameters.map parameterJson)),
     ("return_type", optionalText s.returnType), ("generics", .ofTexts s.generics),
     ("overloads", .ofOption .ofTexts s.overloads),
     ("related_types", .array (s.relatedTypes.map relatedTypeJson)),
     ("examples", .ofTexts s.examples), ("see_also", .ofTexts s.seeAlso),
     ("deprecated", .bool s.deprecated),
     ("deprecation_message", optionalText s.deprecationMessage)]

/-- A field that is left out if it is missing. -/
def optionalField {α : Type} (key : String) (f : α → Value) (a : Option α) :
    List (String × Value) :=
  (a.map fun a => (key, f a)).toList

def exampleJson (e : CodeExample) : Value :=
  .ofFields
    ([("code", .string e.code), ("language", .string e.language), ("source", .string e.source),
      ("concepts", .ofTexts e.concepts)] ++
     optionalField "context" .string e.context ++ optionalField "lines" .ofNat e.lines)

def ContextResponse.toJson (r : ContextResponse) : Value :=
  .ofFields
    [("query", .string r.query), ("framework", optionalText r.framework),
     ("packageName", optionalText r.package), ("version", optionalText r.version),
     ("concept", .string r.concept), ("api", .ofOption signatureJson r.api),
     ("examples", .array (r.examples.map exampleJson)), ("relatedApis", .ofTexts r.relatedApis),
     ("notes", .ofTexts r.notes), ("typesSource", optionalText r.typesSource),
     ("confidence", .number (Query.hundredthsText r.confidence))]

def searchResultJson (r : SearchResult) : Value :=
  .ofFields
    [("framework", .string r.framework), ("packageName", .string r.package),
     ("version", .string r.version), ("name", .string r.name), ("kind", .string r.kind.name),
     ("signature", .string r.signature), ("description", optionalText r.description),
     ("deprecated", .bool r.deprecated), ("score", .ofInt r.score)]

def SearchResponse.toJson (r : SearchResponse) : Value :=
  .ofFields
    [("query", .string r.query), ("results", .array (r.results.map searchResultJson)),
     ("frameworksSearched", .ofTexts r.frameworksSearched), ("totalFound", .ofNat r.totalFound)]

end ApiReference
