import ApiReference.Declaration.Basic
import ApiReference.Text.Lowercase

/-!
# Documentation comments

The text of a comment without its markers, and the description and tags in that text. A tag line
begins with an at sign; what follows up to the next tag line belongs to it.
-/

namespace ApiReference.Declaration

structure Documentation where
  description : Option Text
  /-- Parameter names with their texts. -/
  params : List (Text × Text)
  returns : Option Text
  examples : List Text
  deprecated : Option Text
  seeAlso : List Text
  deriving DecidableEq, Repr

namespace Documentation

def empty : Documentation := ⟨none, [], none, [], none, []⟩

/-- A row of a block comment without its gutter: a leading star and one space after it. -/
def stripGutter (row : Text) : Text :=
  match Text.trimStart row with
  | '*' :: ' ' :: rest => Text.trimEnd rest
  | '*' :: rest => Text.trimEnd rest
  | rest => Text.trimEnd rest

/-- The lines of a comment without opening, closing and gutter. -/
def stripComment (comment : Text) : List Text :=
  match Text.stripStart "//".toList comment with
  | some line => [Text.trim line]
  | none =>
    let inner := Text.stripEndAll "*/".toList
      (Text.stripStartAll "/*".toList (Text.stripStartAll "/**".toList comment))
    (Text.lines inner).map stripGutter

/-- The text after the brace that closes the first one; `depth` braces are open. -/
def afterBraces : Nat → Text → Option Text
  | _, [] => none
  | depth, c :: rest =>
    if c = '{' then afterBraces (depth + 1) rest
    else if c = '}' then if depth ≤ 1 then some rest else afterBraces (depth - 1) rest
    else afterBraces depth rest

/-- A text without a leading type in braces; unbalanced braces stay. -/
def stripTypeBraces (body : Text) : Text :=
  let body := Text.trim body
  match body with
  | '{' :: _ =>
    match afterBraces 0 body with
    | some rest => Text.trim rest
    | none => body
  | _ => body

/-- The name and text of a parameter tag: `\x7bType\x7d [name=default] - text`. -/
def parseParam (body : Text) : Option (Text × Text) :=
  let rest := stripTypeBraces body
  let (rawName, text) := (Text.splitOnce Text.isBlank rest).getD (rest, [])
  let bracketless := Text.trimStartOf (· == '[') rawName
  let name := Text.stripStartAll "...".toList
    (bracketless.takeWhile fun c => c != '=' && c != ']')
  if name.isEmpty then none
  else some (name, Text.trim (Text.trimStartOf (· == '-') (Text.trim text)))

/-- Lines from the first to the last that is not blank, joined; empty if all are blank. -/
def trimBlankLines (lines : List Text) : Text :=
  let blank := fun l : Text => (Text.trim l).isEmpty
  Text.join ['\n'] ((lines.dropWhile blank).reverse.dropWhile blank).reverse

/-- A tag and the lines that belong to it; the first is the rest of the tag line. -/
structure TagBlock where
  tag : Text
  body : List Text
  deriving DecidableEq, Repr

/-- The lines of a block on one line, blank ones left out. -/
def TagBlock.inline (b : TagBlock) : Text :=
  Text.join [' '] ((b.body.map Text.trim).filter fun l => !l.isEmpty)

/-- The documentation with what a tag block adds. Unknown tags add nothing. -/
def addBlock (doc : Documentation) (b : TagBlock) : Documentation :=
  let tag := b.tag
  if tag == "param".toList || tag == "arg".toList || tag == "argument".toList then
    match parseParam b.inline with
    | some param => { doc with params := doc.params ++ [param] }
    | none => doc
  else if tag == "returns".toList || tag == "return".toList then
    let text := stripTypeBraces b.inline
    if text.isEmpty then doc else { doc with returns := some text }
  else if tag == "example".toList then
    let example_ := trimBlankLines b.body
    if example_.isEmpty then doc else { doc with examples := doc.examples ++ [example_] }
  else if tag == "deprecated".toList then
    { doc with deprecated := some (if b.inline.isEmpty then "Deprecated".toList else b.inline) }
  else if tag == "see".toList then
    if b.inline.isEmpty then doc else { doc with seeAlso := doc.seeAlso ++ [b.inline] }
  else doc

/-- The tag and the rest of a tag line, if a line is one. -/
def tagLine? (line : Text) : Option (Text × Text) :=
  match Text.trim line with
  | '@' :: rest =>
    let (tag, more) := (Text.splitOnce Text.isBlank rest).getD (rest, [])
    some (Text.lower tag, more)
  | _ => none

/-- The lines before the first tag line, trimmed, and the tag blocks after them. -/
def blocks : List Text → List Text × List TagBlock
  | [] => ([], [])
  | line :: lines =>
    let (prose, tags) := blocks lines
    match tagLine? line with
    | some (tag, rest) => ([], ⟨tag, rest :: prose⟩ :: tags)
    | none => (line :: prose, tags)

def ofLines (lines : List Text) : Documentation :=
  let (prose, tags) := blocks lines
  let doc := tags.foldl addBlock empty
  let description := Text.trim (Text.join ['\n'] (prose.map Text.trim))
  if description.isEmpty then doc else { doc with description := some description }

/-- Every field that is there, the others from other documentation. Parameters are filled one by
one. -/
def fillMissing (doc other : Documentation) : Documentation :=
  { description := doc.description <|> other.description
    params := other.params.foldl
      (fun params p => if params.any (fun q => q.1 == p.1) then params else params ++ [p])
      doc.params
    returns := doc.returns <|> other.returns
    examples := if doc.examples.isEmpty then other.examples else doc.examples
    deprecated := doc.deprecated <|> other.deprecated
    seeAlso := if doc.seeAlso.isEmpty then other.seeAlso else doc.seeAlso }

/-- The documentation in leading comments: the nearest documentation block, and for what it does not
say, all of the comments read as text. -/
def ofComments (comments : List Text) : Documentation :=
  let structured := match comments.reverse.find? (Text.startsWith "/**".toList) with
    | some block => ofLines (stripComment block)
    | none => empty
  structured.fillMissing (ofLines (comments.flatMap stripComment))

def paramText? (doc : Documentation) (name : Text) : Option Text :=
  ((doc.params.find? fun p => p.1 == name).map Prod.snd).filter fun t => !t.isEmpty

def applyTo (doc : Documentation) (d : Definition) : Definition :=
  { d with
    description := doc.description
    returnsDoc := doc.returns
    examples := doc.examples
    seeAlso := doc.seeAlso
    deprecated := doc.deprecated.isSome
    deprecationMessage := doc.deprecated
    parameters := d.parameters.map fun p => { p with description := doc.paramText? p.name } }

end Documentation
end ApiReference.Declaration
