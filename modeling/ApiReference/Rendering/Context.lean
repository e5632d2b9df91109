import ApiReference.Rendering.Page
import ApiReference.Service.Response
import ApiReference.Settings.Basic

/-!
# The page of an API

Signature, documentation, related types and examples of one API, or what was found in its place.
-/

namespace ApiReference.Rendering
open ApiReference.Declaration (ApiSignature Parameter RelatedType)

/-- Bounds on the size of a page. -/
structure Limits where
  /-- The most characters of a page. -/
  chars : Nat
  /-- The most characters of the signature of a related type or a search result. -/
  signatureChars : Nat
  deriving DecidableEq, Repr

def Limits.ofSettings (s : ContextSettings) : Limits := ⟨s.maxResponseChars, s.relatedTypeMaxChars⟩

def declarationLanguage : Text := "typescript".toList

def inlineCode (t : Text) : Text := '\x60' :: t ++ ['\x60']

def packageAt (package version : Text) : Text := package ++ '@' :: version

/-- A parameter with its type, default and description. -/
def parameterLine (p : Parameter) : Text :=
  let rest := if p.rest then "...".toList else []
  let optional := if p.optional then ['?'] else []
  "- ".toList ++ inlineCode (rest ++ p.name ++ optional) ++
    (if p.type.isEmpty then [] else ": ".toList ++ inlineCode p.type) ++
    (match p.defaultValue with
      | some d => " (default ".toList ++ inlineCode d ++ [')']
      | none => []) ++
    (match p.description with
      | some d => " - ".toList ++ d
      | none => [])

/-- A heading and a list under it, unless the list is empty. -/
def bulletSection (heading : String) (bullets : List Text) (p : Page) : Page :=
  if bullets.isEmpty then p
  else ((p.line heading.toList).lines (bullets.map ("- ".toList ++ ·))).gap

/-- The name, kind and signature of an API. -/
def titleSection (r : ContextResponse) (api : ApiSignature) (p : Page) : Page :=
  let package :=
    match r.package, r.version with
    | some package, some version => " (".toList ++ packageAt package version ++ [')']
    | _, _ => []
  let title := "# ".toList ++ api.name ++ " [".toList ++ api.kind.name ++ [']'] ++ package
  ((p.line title).gap.codeBlock declarationLanguage api.signature).gap

def deprecationSection (api : ApiSignature) (p : Page) : Page :=
  if api.deprecated then
    (p.line ("**Deprecated:** ".toList ++ api.deprecationMessage.getD "Deprecated".toList)).gap
  else p

def descriptionSection (api : ApiSignature) (p : Page) : Page :=
  match api.description with
  | some description => (p.line description).gap
  | none => p

def parametersSection (api : ApiSignature) (p : Page) : Page :=
  if api.parameters.isEmpty then p
  else ((p.line "## Parameters".toList).lines (api.parameters.map parameterLine)).gap

def returnsSection (api : ApiSignature) (p : Page) : Page :=
  match api.returnType with
  | some type => ((p.line "## Returns".toList).line (inlineCode type)).gap
  | none => p

/-- The overloads in one code block, at least the first two. -/
def overloadsSection (api : ApiSignature) (p : Page) : Page :=
  match api.overloads.getD [] with
  | [] => p
  | overloads =>
    let p := (p.line "## Overloads".toList).line (Page.fence ++ declarationLanguage)
    let (p, shown) := Page.items .threeFifths 2 (fun p o => p.line (Text.trimEnd o)) 0 p overloads
    ((p.line Page.fence).omitted (overloads.length - shown) "overloads").gap

/-- The related types, at least the first three. -/
def relatedTypesSection (limits : Limits) (api : ApiSignature) (p : Page) : Page :=
  if api.relatedTypes.isEmpty then p
  else
    let p := p.line "## Related Types".toList
    let write := fun (p : Page) (r : RelatedType) =>
      p.codeBlock declarationLanguage (truncate limits.signatureChars r.signature)
    let (p, shown) := Page.items .threeFifths 3 write 0 p api.relatedTypes
    (p.omitted (api.relatedTypes.length - shown) "related types").gap

/-- All that is known from the declaration of an API. -/
def apiSections (limits : Limits) (r : ContextResponse) (api : ApiSignature) (p : Page) : Page :=
  let p := titleSection r api p
  let p := deprecationSection api p
  let p := descriptionSection api p
  let p := parametersSection api p
  let p := returnsSection api p
  let p := overloadsSection api p
  let p := relatedTypesSection limits api p
  bulletSection "## See Also" api.seeAlso p

/-- The heading of a page without an API. -/
def missingSection (r : ContextResponse) (p : Page) : Page :=
  let p := (p.line ("# No API found for \"".toList ++ r.query ++ ['"'])).gap
  match r.package, r.version with
  | some package, some version => (p.line ("Package: ".toList ++ packageAt package version)).gap
  | _, _ => p

/-- A piece of code on a page. -/
structure Sample where
  title : Text
  language : Text
  code : Text
  deriving DecidableEq, Repr

/-- The examples of the declaration before those found elsewhere. -/
def samples (r : ContextResponse) : List Sample :=
  ((r.api.map ApiSignature.examples).getD []).map
      (fun code => ⟨"From the type documentation".toList, declarationLanguage, code⟩) ++
    r.examples.map fun e => ⟨e.context.getD e.source, e.language, e.code⟩

/-- The examples, at least the first one. -/
def examplesSection (r : ContextResponse) (p : Page) : Page :=
  let samples := samples r
  if samples.isEmpty then p
  else
    let p := p.line "## Examples".toList
    let write := fun (p : Page) (s : Sample) =>
      (p.line ("### ".toList ++ s.title)).codeBlock s.language s.code
    let (p, shown) := Page.items .sevenTenths 1 write 0 p samples
    (p.omitted (samples.length - shown) "examples").gap

def sourceSection (r : ContextResponse) (p : Page) : Page :=
  match r.typesSource with
  | some source => p.line ("_Source: ".toList ++ source ++ ['_'])
  | none => p

/-- The page of a response before it is cut to its budget. -/
def contextPage (limits : Limits) (r : ContextResponse) : Page :=
  let p := Page.empty limits.chars
  let p :=
    match r.api with
    | some api => apiSections limits r api p
    | none => missingSection r p
  let p := examplesSection r p
  let p := bulletSection "## Similar APIs" (r.relatedApis.map inlineCode) p
  let p := bulletSection "## Notes" r.notes p
  sourceSection r p

def contextText (limits : Limits) (r : ContextResponse) : Text := (contextPage limits r).finish

end ApiReference.Rendering
