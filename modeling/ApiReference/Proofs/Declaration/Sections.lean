import ApiReference.Proofs.Declaration.TagTexts
import ApiReference.Proofs.Text.BlankLines

/-!
# Sections of a comment

The lines of a comment are the prose before the first tag line and one section for each tag line, up
to the next one; there is one way to divide them so. Each field of the documentation comes from the
prose or from the sections of its tags. Main statement: `ofLines_divides`.
-/

namespace ApiReference.Declaration.Documentation

/-- Whether the first character of a line that is not blank is an at sign. -/
def OpensTag (line : Text) : Prop := (Text.trimStart line).head? = some '@'

instance : DecidablePred OpensTag := fun line =>
  inferInstanceAs (Decidable ((Text.trimStart line).head? = some '@'))

/-- A tag line and the lines up to the next one. -/
@[ext]
structure Section where
  opening : Text
  following : List Text
  opens : OpensTag opening
  within : ∀ line ∈ following, ¬ OpensTag line

namespace Section
variable (s : Section)

/-- What stands behind the at sign. -/
def content : Text := (Text.trim s.opening).tail

def tag : Text := Text.lower (s.content.takeWhile fun c => !Text.isBlank c)

/-- The rest of the tag line, behind the blank that ends the tag. -/
def remainder : Text := (s.content.dropWhile fun c => !Text.isBlank c).tail

def lines : List Text := s.opening :: s.following

def body : List Text := s.remainder :: s.following

/-- The body on one line without its blank lines. -/
def inline : Text := TagBlock.inline ⟨s.tag, s.body⟩

end Section

@[ext]
structure Division where
  prose : List Text
  sections : List Section
  plain : ∀ line ∈ prose, ¬ OpensTag line

namespace Division

def lines (d : Division) : List Text := d.prose ++ d.sections.flatMap Section.lines

def description (d : Division) : Text := Text.trim (Text.join ['\n'] (d.prose.map Text.trim))

/-- Divides lines from the last to the first: what stood before the first tag line belongs to the
tag line put in front of it. -/
def read : List Text → Division
  | [] => ⟨[], [], nofun⟩
  | line :: more =>
    let rest := read more
    if opens : OpensTag line then ⟨[], ⟨line, rest.prose, opens, rest.plain⟩ :: rest.sections, nofun⟩
    else ⟨line :: rest.prose, rest.sections, List.forall_mem_cons.2 ⟨opens, rest.plain⟩⟩

theorem read_cons_of_opens {line : Text} (opens : OpensTag line) (more : List Text) :
    read (line :: more) =
      ⟨[], ⟨line, (read more).prose, opens, (read more).plain⟩ :: (read more).sections, nofun⟩ := by
  rw [read, dif_pos opens]

theorem read_cons_of_plain {line : Text} (plain : ¬ OpensTag line) (more : List Text) :
    read (line :: more) = ⟨line :: (read more).prose, (read more).sections,
      List.forall_mem_cons.2 ⟨plain, (read more).plain⟩⟩ := by
  rw [read, dif_neg plain]

theorem lines_read (lines : List Text) : (read lines).lines = lines := by
  induction lines with
  | nil => rfl
  | cons line more ih =>
      by_cases opens : OpensTag line
      · rw [read_cons_of_opens opens]
        exact congrArg (line :: ·) ih
      · rw [read_cons_of_plain opens]
        exact congrArg (line :: ·) ih

theorem read_append {prose : List Text} (plain : ∀ line ∈ prose, ¬ OpensTag line)
    (more : List Text) :
    (read (prose ++ more)).prose = prose ++ (read more).prose ∧
    (read (prose ++ more)).sections = (read more).sections := by
  induction prose with
  | nil => exact ⟨rfl, rfl⟩
  | cons line prose ih =>
      obtain ⟨first, rest⟩ := List.forall_mem_cons.1 plain
      obtain ⟨prose', sections'⟩ := ih rest
      rw [List.cons_append, read_cons_of_plain first]
      exact ⟨congrArg (line :: ·) prose', sections'⟩

theorem read_sections (sections : List Section) :
    read (sections.flatMap Section.lines) = ⟨[], sections, nofun⟩ := by
  induction sections with
  | nil => rfl
  | cons s sections ih =>
      obtain ⟨prose, rest⟩ := read_append s.within (sections.flatMap Section.lines)
      have whole : (s :: sections).flatMap Section.lines =
          s.opening :: (s.following ++ sections.flatMap Section.lines) := rfl
      rw [whole, read_cons_of_opens s.opens]
      -- reading on stops at the next opening, so nothing of the next section is taken
      ext1
      · rfl
      · rw [ih] at prose rest
        simp only [prose, rest, List.append_nil]

theorem read_lines (d : Division) : read d.lines = d := by
  obtain ⟨prose, sections⟩ := read_append d.plain (d.sections.flatMap Section.lines)
  rw [read_sections] at prose sections
  ext1
  · rw [lines, prose, List.append_nil]
  · exact sections

end Division

theorem opensTag_iff {line : Text} : OpensTag line ↔ ∃ content, Text.trim line = '@' :: content := by
  have visible : Text.isBlank '@' = false := by decide
  constructor
  · intro opens
    obtain ⟨rest, start⟩ := List.head?_eq_some_iff.1 opens
    refine ⟨Text.trimEnd rest, ?_⟩
    have kept := Text.trimEndOf_append_cons visible [] rest
    rw [List.nil_append, ← start] at kept
    exact kept
  · rintro ⟨content, trimmed⟩
    have whole := Text.trimEndOf_append_dropped Text.isBlank (Text.trimStart line)
    have start : Text.trimEndOf Text.isBlank (Text.trimStart line) = '@' :: content := trimmed
    rw [start, List.cons_append] at whole
    rw [OpensTag, ← whole, List.head?_cons]

theorem tagLine?_opening (s : Section) : tagLine? s.opening = some (s.tag, s.remainder) := by
  obtain ⟨content, trimmed⟩ := opensTag_iff.1 s.opens
  have behind : s.content = content := by rw [Section.content, trimmed, List.tail_cons]
  rw [tagLine?, trimmed]
  simp only [splitOnce_getD, Section.tag, Section.remainder, behind]

theorem tagLine?_of_plain {line : Text} (plain : ¬ OpensTag line) : tagLine? line = none := by
  rw [tagLine?]
  split
  · next content trimmed => exact absurd (opensTag_iff.2 ⟨content, trimmed⟩) plain
  · rfl

def Section.block (s : Section) : TagBlock := ⟨s.tag, s.body⟩

theorem blocks_eq (lines : List Text) :
    blocks lines = ((Division.read lines).prose, (Division.read lines).sections.map Section.block) := by
  induction lines with
  | nil => rfl
  | cons line more ih =>
      rw [blocks, ih]
      by_cases opens : OpensTag line
      · rw [Division.read_cons_of_opens opens]
        simp only [tagLine?_opening ⟨line, _, opens, (Division.read more).plain⟩]
        rfl
      · rw [Division.read_cons_of_plain opens]
        simp only [tagLine?_of_plain opens]

/-- What a tag is about. -/
inductive Topic where
  | parameter
  | result
  | sample
  | deprecation
  | reference
  | other
  deriving DecidableEq

def Topic.ofTag (tag : Text) : Topic :=
  if tag ∈ ["param".toList, "arg".toList, "argument".toList] then parameter
  else if tag ∈ ["returns".toList, "return".toList] then result
  else if tag = "example".toList then sample
  else if tag = "deprecated".toList then deprecation
  else if tag = "see".toList then reference
  else other

/-- A text, unless it is empty. -/
def given (t : Text) : Option Text := if t = [] then none else some t

namespace Section
variable (s : Section)

def topic : Topic := .ofTag s.tag

/-- The name and text of the parameter that a section names. -/
def parameter? : Option (Text × Text) := if s.topic = .parameter then parseParam s.inline else none

def result? : Option Text := if s.topic = .result then given (stripTypeBraces s.inline) else none

def sample? : Option Text := if s.topic = .sample then given (trimBlankLines s.body) else none

def deprecation? : Option Text :=
  if s.topic = .deprecation then some ((given s.inline).getD "Deprecated".toList) else none

def reference? : Option Text := if s.topic = .reference then given s.inline else none

theorem addBlock_block (doc : Documentation) : addBlock doc s.block =
    { description := doc.description
      params := doc.params ++ s.parameter?.toList
      returns := s.result?.or doc.returns
      examples := doc.examples ++ s.sample?.toList
      deprecated := s.deprecation?.or doc.deprecated
      seeAlso := doc.seeAlso ++ s.reference?.toList } := by
  have inline : s.block.inline = s.inline := rfl
  have topic : s.topic = Topic.ofTag s.block.tag := rfl
  have body : s.block.body = s.body := rfl
  simp only [parameter?, result?, sample?, deprecation?, reference?, topic, Topic.ofTag, addBlock,
    inline, body, given, List.mem_cons, List.not_mem_nil, or_false, Bool.or_eq_true, beq_iff_eq,
    or_assoc, List.isEmpty_iff]
  split
  · cases parseParam s.inline <;> simp
  split
  · by_cases nothing : stripTypeBraces s.inline = [] <;> simp [nothing]
  split
  · by_cases nothing : trimBlankLines s.body = [] <;> simp [nothing]
  split
  · by_cases nothing : s.inline = [] <;> simp [nothing]
  split
  · by_cases nothing : s.inline = [] <;> simp [nothing]
  · simp

end Section

/-- Of the sections that set a field the last one counts, and lists grow section by section. -/
theorem foldl_addBlock (doc : Documentation) (sections : List Section) :
    (sections.map Section.block).foldl addBlock doc =
      { description := doc.description
        params := doc.params ++ sections.filterMap Section.parameter?
        returns := (sections.filterMap Section.result?).getLast?.or doc.returns
        examples := doc.examples ++ sections.filterMap Section.sample?
        deprecated := (sections.filterMap Section.deprecation?).getLast?.or doc.deprecated
        seeAlso := doc.seeAlso ++ sections.filterMap Section.reference? } := by
  have last (o more : Option Text) (ts : List Text) :
      (o.toList ++ ts).getLast?.or more = ts.getLast?.or (o.or more) := by
    rw [List.getLast?_append, Option.or_assoc]
    cases o <;> rfl
  induction sections generalizing doc with
  | nil => simp
  | cons s sections ih =>
      rw [List.map_cons, List.foldl_cons, s.addBlock_block, ih]
      simp only [List.filterMap_eq_flatMap_toList, List.flatMap_cons, last, List.append_assoc]

theorem ofLines_lines (d : Division) : ofLines d.lines =
    { description := given d.description
      params := d.sections.filterMap Section.parameter?
      returns := (d.sections.filterMap Section.result?).getLast?
      examples := d.sections.filterMap Section.sample?
      deprecated := (d.sections.filterMap Section.deprecation?).getLast?
      seeAlso := d.sections.filterMap Section.reference? } := by
  rw [ofLines, blocks_eq, d.read_lines]
  simp only [foldl_addBlock, empty, List.nil_append, Option.or_none, given, Division.description,
    List.isEmpty_iff]
  by_cases nothing : Text.trim (Text.join ['\n'] (d.prose.map Text.trim)) = [] <;> simp [nothing]

theorem trimBlankLines_eq (lines : List Text) :
    trimBlankLines lines = Text.join ['\n'] (Text.trimLines lines) := by
  have same : (fun line : Text => (Text.trim line).isEmpty) = Text.isBlankLine := by
    funext line
    rw [Bool.eq_iff_iff, List.isEmpty_iff, Text.trim_eq_nil_iff, Text.isBlankLine_iff]
  rw [trimBlankLines, same]
  rfl

theorem join_trimLines_eq_nil_iff {lines : List Text} :
    Text.join ['\n'] (Text.trimLines lines) = [] ↔ Text.trimLines lines = [] := by
  constructor
  · intro nothing
    cases kept : Text.trimLines lines with
    | nil => rfl
    | cons line more =>
        have inked : Text.isBlankLine line = false :=
          (Text.trims_trimLines lines).first line (by rw [kept]; rfl)
        rw [kept] at nothing
        have bare : line = [] := by
          cases more with
          | nil => exact nothing
          | cons _ _ => exact (List.append_eq_nil_iff.1 (List.append_eq_nil_iff.1 nothing).1).1
        rw [bare] at inked
        cases inked
  · intro nothing
    rw [nothing]
    rfl

theorem Section.sample?_eq_some_iff {s : Section} {text : Text} : s.sample? = some text ↔
    s.topic = .sample ∧ ∃ kept, kept ≠ [] ∧ Text.Trims s.body kept ∧
      text = Text.join ['\n'] kept := by
  simp only [Section.sample?, given, trimBlankLines_eq, join_trimLines_eq_nil_iff]
  by_cases topic : s.topic = .sample
  · rw [if_pos topic]
    constructor
    · intro found
      split at found
      · cases found
      · next some =>
          cases found
          exact ⟨topic, _, some, Text.trims_trimLines s.body, rfl⟩
    · rintro ⟨-, kept, some, trims, rfl⟩
      rw [trims.eq, if_neg some]
  · rw [if_neg topic]
    exact ⟨nofun, fun found => absurd found.1 topic⟩

section
variable {s : Section} {name text : Text}

theorem Section.parameter?_eq_some_iff : s.parameter? = some (name, text) ↔
    s.topic = .parameter ∧ ∃ line t, OnOneLine s.body line ∧ Untyped line t ∧
      NamesParameter t name text := by
  have own : OnOneLine s.body s.inline := inline_iff.1 rfl
  rw [Section.parameter?, Option.ite_none_right_eq_some, parseParam_iff]
  refine and_congr_right fun _ => ⟨?_, ?_⟩
  · rintro ⟨t, untyped, names⟩
    exact ⟨s.inline, t, own, untyped, names⟩
  · rintro ⟨line, t, onOneLine, untyped, names⟩
    obtain rfl : s.inline = line := inline_iff.2 onOneLine
    exact ⟨t, untyped, names⟩

theorem given_eq_some_iff {t : Text} : given t = some text ↔ text ≠ [] ∧ t = text := by
  rw [given, Option.ite_none_left_eq_some, Option.some.injEq]
  constructor
  · rintro ⟨filled, rfl⟩
    exact ⟨filled, rfl⟩
  · rintro ⟨filled, rfl⟩
    exact ⟨filled, rfl⟩

theorem Section.result?_eq_some_iff : s.result? = some text ↔
    s.topic = .result ∧ text ≠ [] ∧ ∃ line, OnOneLine s.body line ∧ Untyped line text := by
  have own : OnOneLine s.body s.inline := inline_iff.1 rfl
  rw [Section.result?, Option.ite_none_right_eq_some, given_eq_some_iff, stripTypeBraces_iff]
  refine and_congr_right fun _ => and_congr_right fun _ => ⟨fun untyped => ⟨_, own, untyped⟩, ?_⟩
  rintro ⟨line, onOneLine, untyped⟩
  obtain rfl : s.inline = line := inline_iff.2 onOneLine
  exact untyped

theorem Section.deprecation?_eq_some_iff : s.deprecation? = some text ↔
    s.topic = .deprecation ∧ (text ≠ [] ∧ OnOneLine s.body text ∨
      OnOneLine s.body [] ∧ text = "Deprecated".toList) := by
  have own (t : Text) : s.inline = t ↔ OnOneLine s.body t := inline_iff
  rw [Section.deprecation?, Option.ite_none_right_eq_some, Option.some.injEq, ← own, ← own, given]
  refine and_congr_right fun _ => ?_
  split
  · next none =>
      rw [Option.getD_none, none]
      constructor
      · rintro rfl
        exact .inr ⟨rfl, rfl⟩
      · rintro (⟨filled, rfl⟩ | ⟨-, rfl⟩)
        · exact absurd rfl filled
        · rfl
  · next filled =>
      rw [Option.getD_some]
      constructor
      · rintro rfl
        exact .inl ⟨filled, rfl⟩
      · rintro (⟨-, same⟩ | ⟨none, -⟩)
        · exact same
        · exact absurd none filled

theorem Section.reference?_eq_some_iff : s.reference? = some text ↔
    s.topic = .reference ∧ text ≠ [] ∧ OnOneLine s.body text := by
  have own : s.inline = text ↔ OnOneLine s.body text := inline_iff
  rw [Section.reference?, Option.ite_none_right_eq_some, given_eq_some_iff, own]

end

/-- Lines are divided into prose and sections in one way, so that every line belongs to one of them.
The description is the prose; parameters, samples and references are those of the sections for them,
one for each section that has one, in their order; of the results and deprecations the last one
counts. All but a sample is read from the lines of a section as one line: a parameter with its text
and a result behind a type in braces. A sample is what its section has from the first to the last
line that is not blank, and a section on anything else adds nothing. -/
theorem ofLines_divides (lines : List Text) : ∃ d : Division, d.lines = lines ∧
    (∀ other : Division, other.lines = lines → other = d) ∧
    ofLines lines =
      { description := given d.description
        params := d.sections.filterMap Section.parameter?
        returns := (d.sections.filterMap Section.result?).getLast?
        examples := d.sections.filterMap Section.sample?
        deprecated := (d.sections.filterMap Section.deprecation?).getLast?
        seeAlso := d.sections.filterMap Section.reference? } ∧
    ∀ s ∈ d.sections,
      (∀ name text, s.parameter? = some (name, text) ↔ s.topic = .parameter ∧
        ∃ line t, OnOneLine s.body line ∧ Untyped line t ∧ NamesParameter t name text) ∧
      (∀ text, s.result? = some text ↔ s.topic = .result ∧ text ≠ [] ∧
        ∃ line, OnOneLine s.body line ∧ Untyped line text) ∧
      (∀ text, s.sample? = some text ↔ s.topic = .sample ∧ ∃ kept, kept ≠ [] ∧
        Text.Trims s.body kept ∧ text = Text.join ['\n'] kept) ∧
      (∀ text, s.deprecation? = some text ↔ s.topic = .deprecation ∧
        (text ≠ [] ∧ OnOneLine s.body text ∨
          OnOneLine s.body [] ∧ text = "Deprecated".toList)) ∧
      (∀ text, s.reference? = some text ↔
        s.topic = .reference ∧ text ≠ [] ∧ OnOneLine s.body text) ∧
      (s.topic = .other → s.parameter? = none ∧ s.result? = none ∧ s.sample? = none ∧
        s.deprecation? = none ∧ s.reference? = none) := by
  refine ⟨Division.read lines, Division.lines_read lines, ?_, ?_, ?_⟩
  · intro other same
    rw [← same, other.read_lines]
  · have fields := ofLines_lines (Division.read lines)
    rwa [Division.lines_read] at fields
  · intro s _
    refine ⟨fun name text => Section.parameter?_eq_some_iff, fun text => Section.result?_eq_some_iff,
      fun text => s.sample?_eq_some_iff, fun text => Section.deprecation?_eq_some_iff,
      fun text => Section.reference?_eq_some_iff, fun other => ?_⟩
    simp only [Section.parameter?, Section.result?, Section.sample?, Section.deprecation?,
      Section.reference?, other, reduceCtorEq, if_false, and_self]

/-- Lines of a comment with prose, tags of every topic and one on something else. -/
def openingLines : List Text :=
  ["Opens a shop. ", "@param \x7bShop<\x7b at: 1 \x7d>\x7d [...shops=all] - The shops", "",
    "  to open.", "@returns nothing", "@Returns \x7bTill\x7d The till.", "@return \x7bTill\x7d",
    "@example", "  open(a);", "", "    open(b);", "", "@internal", "Not for all.", "@deprecated",
    " ", "@see close", "@see"].map String.toList

theorem ofLines_divides_opening : ∃ d : Division, d.lines = openingLines ∧
    d.sections.map Section.topic = [.parameter, .result, .result, .result, .sample, .other,
      .deprecation, .reference, .reference] ∧
    ofLines openingLines =
      { description := some "Opens a shop.".toList
        params := [("shops".toList, "The shops to open.".toList)]
        returns := some "The till.".toList
        examples := ["  open(a);\n\n    open(b);".toList]
        deprecated := some "Deprecated".toList
        seeAlso := ["close".toList] } ∧
    ∀ s ∈ d.sections, s.topic = .parameter → ∃ line t, OnOneLine s.body line ∧ Untyped line t ∧
      NamesParameter t "shops".toList "The shops to open.".toList := by
  obtain ⟨d, whole, unique, -, sections⟩ := ofLines_divides openingLines
  obtain rfl := unique _ (Division.lines_read openingLines)
  have named : ∀ s ∈ (Division.read openingLines).sections, s.topic = .parameter →
      s.parameter? = some ("shops".toList, "The shops to open.".toList) := by decide
  refine ⟨_, whole, by decide, by decide, fun s member topic => ?_⟩
  exact (((sections s member).1 _ _).1 (named s member topic)).2

end ApiReference.Declaration.Documentation
