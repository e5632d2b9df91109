import ApiReference.Text.Lowercase

/-!
# Examples in documentation

Examples are the fenced code blocks of a document in Markdown. A block is an example of a concept if
it contains every word of it.
-/

namespace ApiReference.Package

/-- A piece of code that shows how to use something. -/
structure CodeExample where
  code : Text
  language : Text
  /-- Where the code is from. -/
  source : Text
  /-- The words it is an example of. -/
  concepts : List Text
  /-- The heading it stands under. -/
  context : Option Text
  lines : Option Nat
  deriving DecidableEq, Repr

def exampleLimit : Nat := 10

/-- The text after at most three blanks, which is all the indentation that a heading or a fence may
have. -/
def afterIndent (line : Text) : Text :=
  let blanks := line.takeWhile Text.isBlank
  line.drop (min blanks.length 3)

/-- Whether nothing is left of a heading but its closing number signs. -/
def isHeadingEnd (t : Text) : Bool :=
  ((((t.dropWhile Text.isBlank).dropWhile (· == '#')).dropWhile Text.isBlank)).isEmpty

/-- The title at the start of a text: at least one character, up to where the heading ends. -/
def headingTitle : Text → Text
  | [] => []
  | c :: t => if isHeadingEnd t then [c] else c :: headingTitle t

/-- The title of a heading: one to six number signs, blanks and at least one more character. -/
def heading? (line : Text) : Option Text :=
  let t := afterIndent line
  let signs := t.takeWhile (· == '#')
  let rest := t.dropWhile (· == '#')
  let blanks := rest.takeWhile Text.isBlank
  let title := rest.dropWhile Text.isBlank
  if signs.isEmpty || 6 < signs.length || blanks.isEmpty then none
  else if title.isEmpty then
    if blanks.length < 2 then none else some (blanks.drop (blanks.length - 1))
  else some (headingTitle title)

def isLanguageChar (c : Char) : Bool :=
  c.isAlphanum || c == '_' || c == '+' || c == '#' || c == '.' || c == '-'

/-- The opening of a code block. -/
structure Fence where
  /-- The backticks or tildes. -/
  marks : Text
  language : Text
  deriving DecidableEq, Repr

/-- A fence of three or more backticks or tildes. -/
def fence? (line : Text) : Option Fence :=
  let t := afterIndent line
  match t with
  | [] => none
  | mark :: _ =>
    let marks := t.takeWhile (· == mark)
    if (mark.toNat == 0x60 || mark == '~') && 3 ≤ marks.length then
      let language := ((t.drop marks.length).dropWhile Text.isBlank).takeWhile isLanguageChar
      some ⟨marks, if language.isEmpty then "text".toList else Text.lower language⟩
    else none

/-- Whether a line ends a block that a fence has opened. -/
def Fence.isClosedBy (f : Fence) (line : Text) : Bool :=
  Text.startsWith f.marks (Text.trimStart line)

/-- A code block with the heading it stands under. -/
structure CodeBlock where
  heading : Option Text
  fence : Fence
  body : List Text
  deriving DecidableEq, Repr

/-- Where a reading of lines stands: outside of any block, or in one whose lines so far are given
last one first. -/
inductive Place where
  | outside
  | inside (fence : Fence) (body : List Text)

/-- The code blocks of lines. A block that is never closed goes on to the end. -/
def codeBlocksFrom : Option Text → Place → List Text → List CodeBlock
  | _, .outside, [] => []
  | title, .inside fence body, [] => [⟨title, fence, body.reverse⟩]
  | title, .inside fence body, line :: lines =>
    if fence.isClosedBy line then
      ⟨title, fence, body.reverse⟩ :: codeBlocksFrom title .outside lines
    else codeBlocksFrom title (.inside fence (line :: body)) lines
  | title, .outside, line :: lines =>
    match heading? line with
    | some newTitle => codeBlocksFrom (some newTitle) .outside lines
    | none =>
      match fence? line with
      | some fence => codeBlocksFrom title (.inside fence []) lines
      | none => codeBlocksFrom title .outside lines

def codeBlocks (markdown : Text) : List CodeBlock :=
  codeBlocksFrom none .outside (Text.lines markdown)

namespace CodeBlock

def code (b : CodeBlock) : Text := Text.join ['\n'] b.body

/-- Whether a block has something in it and mentions all terms, which are in lower case. -/
def mentions (b : CodeBlock) (terms : List Text) : Bool :=
  let code := b.code
  let lowered := Text.lower code
  !(Text.trim code).isEmpty && terms.all fun term => Text.occursIn term lowered

end CodeBlock

def conceptTerms (concept : Text) : List Text := (Text.words concept).map Text.lower

/-- The first examples of a concept in a document. A concept without words fits every block. -/
def examplesIn (markdown concept source : Text) : List CodeExample :=
  let terms := conceptTerms concept
  (((codeBlocks markdown).filter fun b => b.mentions terms).take exampleLimit).map fun b =>
    ⟨b.code, b.fence.language, source, terms, b.heading, some b.body.length⟩

end ApiReference.Package
