import ApiReference.Declaration.Documentation
import ApiReference.Proofs.Text.BlankLines
import ApiReference.Proofs.Text.Stripping

/-!
# Block comments without their markers

A block comment holds one line on its only row, or one line on every row with a gutter. Without the
markers these lines come back, up to blank lines at the ends and blanks at line ends, unless a star
of the closing stands on the only row, or there is nothing at all between short markers.
Main statement: `stripComment_text`.
-/

namespace ApiReference.Declaration.Documentation
open ApiReference.Text (isBlank isBlankLine isBlankLine_append isBlankLine_iff not_prefix_of_head?
  trimEnd trimEnd_of_isBlankLine trimLines trimStart_append trimStart_cons)

def afterGutter : Text → Text
  | '*' :: ' ' :: rest => rest
  | '*' :: rest => rest
  | rest => rest

theorem afterGutter_spaced (rest : Text) : afterGutter ('*' :: ' ' :: rest) = rest := rfl

theorem afterGutter_star {rest : Text} (spaceless : rest.head? ≠ some ' ') :
    afterGutter ('*' :: rest) = rest := by
  apply afterGutter.eq_2
  intro more spaced
  rw [spaced] at spaceless
  exact spaceless rfl

theorem afterGutter_of_head? {t : Text} (starless : t.head? ≠ some '*') : afterGutter t = t := by
  apply afterGutter.eq_3
  all_goals
    intro rest starred
    rw [starred] at starless
    exact starless rfl

theorem stripGutter_eq (row : Text) :
    stripGutter row = trimEnd (afterGutter (Text.trimStart row)) := by
  unfold stripGutter
  split
  · next start => rw [start, afterGutter_spaced]
  · next rest spaceless start =>
      rw [start, afterGutter.eq_2 rest spaceless]
  · next spaceless starless => rw [afterGutter.eq_3 _ spaceless starless]

theorem stripGutter_of_isBlankLine {row : Text} (blank : isBlankLine row = true) :
    stripGutter row = [] := by
  have nothing : Text.trimStart row = [] := List.dropWhile_eq_nil_iff.2 (isBlankLine_iff.1 blank)
  rw [stripGutter_eq, nothing]
  rfl

theorem trimEnd_afterGutter_append (c : Char) (rest : Text) {blanks : Text}
    (blank : isBlankLine blanks = true) :
    trimEnd (afterGutter (c :: rest ++ blanks)) = trimEnd (afterGutter (c :: rest)) := by
  have cut (t : Text) : trimEnd (t ++ blanks) = trimEnd t :=
    Text.trimEndOf_append t (isBlankLine_iff.1 blank)
  by_cases star : c = '*'
  · subst star
    by_cases spaced : (rest ++ blanks).head? = some ' '
    · obtain ⟨more, whole⟩ := List.head?_eq_some_iff.1 spaced
      cases rest with
      | nil =>
          -- the space that is cut off with the star is one of the blanks
          rw [List.nil_append] at whole
          rw [whole, isBlankLine, List.all_cons, Bool.and_eq_true] at blank
          rw [List.cons_append, List.nil_append, whole, afterGutter_spaced]
          exact trimEnd_of_isBlankLine blank.2
      | cons d rest =>
          obtain rfl : d = ' ' := Option.some.inj spaced
          exact cut rest
    · have spaceless : rest.head? ≠ some ' ' := fun spaceful => by
        rw [List.head?_append, spaceful] at spaced
        exact spaced rfl
      rw [List.cons_append, afterGutter_star spaced, afterGutter_star spaceless, cut]
  · have starless : ∀ more, (c :: more).head? ≠ some '*' := fun _ same => star (Option.some.inj same)
    rw [List.cons_append, afterGutter_of_head? (starless _), afterGutter_of_head? (starless _),
      ← List.cons_append, cut]

theorem stripGutter_append (row : Text) {blanks : Text} (blank : isBlankLine blanks = true) :
    stripGutter (row ++ blanks) = stripGutter row := by
  cases filled : isBlankLine row with
  | true =>
      rw [stripGutter_of_isBlankLine filled,
        stripGutter_of_isBlankLine (isBlankLine_append.2 ⟨filled, blank⟩)]
  | false =>
      obtain ⟨start, c, rest, rfl, indent, inside⟩ := Text.exists_of_not_isBlankLine filled
      rw [List.append_assoc, List.cons_append, stripGutter_eq, stripGutter_eq, trimStart_append indent,
        trimStart_append indent, trimStart_cons inside, trimStart_cons inside]
      exact trimEnd_afterGutter_append c rest blank

theorem stripGutter_starred {blanks : Text} (blank : isBlankLine blanks = true) (rest : Text) :
    stripGutter (blanks ++ '*' :: rest) = trimEnd (afterGutter ('*' :: rest)) := by
  rw [stripGutter_eq, trimStart_append blank, trimStart_cons (by decide)]

theorem stripGutter_plain {blanks : Text} (blank : isBlankLine blanks = true) {t : Text} {c : Char}
    (first : t.head? = some c) (filled : isBlank c = false) (starless : c ≠ '*') :
    stripGutter (blanks ++ t) = trimEnd t := by
  obtain ⟨rest, rfl⟩ := List.head?_eq_some_iff.1 first
  have other : (c :: rest).head? ≠ some '*' := fun same => starless (Option.some.inj same)
  rw [stripGutter_eq, trimStart_append blank, trimStart_cons filled, afterGutter_of_head? other]

theorem stripComment_of_starred {comment : Text} (starred : comment.tail.head? = some '*') :
    stripComment comment = (Text.lines (Text.stripEndAll "*/".toList (Text.stripStartAll "/*".toList
      (Text.stripStartAll "/**".toList comment)))).map stripGutter := by
  have none : Text.stripStart "//".toList comment = none := Text.stripStart_eq_none fun line => by
    obtain ⟨rest, rfl⟩ := line
    cases starred
  rw [stripComment, none]

/-- Nothing is cut off between a long opening and the closing. -/
theorem stripComment_documented {t : Text} (start : ∀ c ∈ t.head?, c ≠ '/')
    (unclosed : ¬ "*/".toList <:+ t) :
    stripComment ("/**".toList ++ (t ++ "*/".toList)) = (Text.lines t).map stripGutter := by
  have other : ∀ c ∈ (t ++ "*/".toList).head?, c ≠ '/' := by
    cases t with
    | nil => decide
    | cons c t => exact start
  have documented : ¬ "/**".toList <+: t ++ "*/".toList := not_prefix_of_head? other
  have short : ¬ "/*".toList <+: t ++ "*/".toList := not_prefix_of_head? other
  rw [stripComment_of_starred rfl, Text.stripStartAll_append documented,
    Text.stripStartAll_of_not_prefix short, Text.stripEndAll_append unclosed]

theorem stripComment_short {c : Char} {t : Text} (starless : c ≠ '*') (slashless : c ≠ '/')
    (unclosed : ¬ "*/".toList <:+ c :: t) :
    stripComment ("/*".toList ++ (c :: t ++ "*/".toList)) = (Text.lines (c :: t)).map stripGutter := by
  -- with a star behind it the opening would be taken for the longer one
  have documented : ¬ "/**".toList <+: "/*".toList ++ (c :: t ++ "*/".toList) := by
    rintro ⟨rest, same⟩
    cases same
    exact starless rfl
  have short : ¬ "/*".toList <+: c :: t ++ "*/".toList := not_prefix_of_head? fun d first same =>
    slashless ((Option.some.inj first).trans same)
  rw [stripComment_of_starred rfl, Text.stripStartAll_of_not_prefix documented,
    Text.stripStartAll_append short, Text.stripEndAll_append unclosed]

/-- Blanks within a row. -/
structure Blanks where
  text : Text
  single : '\n' ∉ text
  blank : isBlankLine text = true

/-- A line that no part of which can be taken for a marker. -/
structure PlainLine where
  text : Text
  single : '\n' ∉ text
  unclosed : ¬ "*/".toList <:+: text
  start : isBlankLine text = false → ∀ c ∈ text.head?, isBlank c = false ∧ c ≠ '*' ∧ c ≠ '/'

/-- A line behind a gutter. Before a blank line the gutter may be a star without a space. -/
structure GutterRow where
  indent : Blanks
  spaced : Bool
  line : PlainLine
  blank : spaced = false → isBlankLine line.text = true

/-- What stands between the markers: a line, or rows and the indentation of the closing. -/
inductive CommentBody where
  | oneRow (before : Blanks) (line : PlainLine) (after : Blanks)
  | manyRows (margin : Blanks) (rows : List GutterRow) (closing : Blanks)

/-- A block comment with one star or two in the opening, and with one or two in the closing. -/
structure BlockComment where
  documents : Bool
  doubled : Bool
  body : CommentBody

def GutterRow.text (r : GutterRow) : Text :=
  r.indent.text ++ '*' :: (if r.spaced then ' ' :: r.line.text else r.line.text)

namespace CommentBody

def text : CommentBody → Text
  | .oneRow before line after => before.text ++ (line.text ++ after.text)
  | .manyRows margin rows closing =>
    margin.text ++ (rows.flatMap (fun r => '\n' :: r.text) ++ '\n' :: closing.text)

def lines : CommentBody → List Text
  | .oneRow _ line _ => [line.text]
  | .manyRows _ rows _ => rows.map fun r => r.line.text

end CommentBody

namespace BlockComment
variable (c : BlockComment)

def opening : Text := if c.documents then "/**".toList else "/*".toList

/-- The star that the closing has more than it needs. -/
def extraStar : Text := if c.doubled then ['*'] else []

def text : Text := c.opening ++ (c.body.text ++ c.extraStar ++ "*/".toList)

/-- What is left of the markers: the row with the star of the closing in it, or the slash where the
opening takes the star of the closing for its own. -/
def leftover? : Option Text :=
  match c.body with
  | .oneRow before line after =>
    if c.doubled then
      if isBlankLine line.text then none else some (line.text ++ after.text ++ ['*'])
    else if c.documents = false ∧ before.text ++ (line.text ++ after.text) = [] then some ['/']
    else none
  | .manyRows .. => none

end BlockComment

theorem ne_of_isBlank {c : Char} (blank : isBlank c = true) : c ≠ '*' ∧ c ≠ '/' := by
  constructor
  all_goals
    rintro rfl
    revert blank
    decide

theorem isBlank_of_head? {t : Text} (blank : isBlankLine t = true) {c : Char} (first : c ∈ t.head?) :
    isBlank c = true := isBlankLine_iff.1 blank c (List.mem_of_mem_head? first)

theorem PlainLine.exists_start (l : PlainLine) (filled : isBlankLine l.text = false) :
    ∃ c, l.text.head? = some c ∧ isBlank c = false ∧ c ≠ '*' ∧ c ≠ '/' := by
  cases first : l.text.head? with
  | none =>
      rw [List.head?_eq_none_iff.1 first] at filled
      cases filled
  | some c => exact ⟨c, rfl, l.start filled c first⟩

theorem PlainLine.head?_ne (line : PlainLine) {c : Char} (first : c ∈ line.text.head?) :
    c ≠ '*' ∧ c ≠ '/' := by
  cases filled : isBlankLine line.text with
  | true => exact ne_of_isBlank (isBlank_of_head? filled first)
  | false => exact (line.start filled c first).2

theorem Blanks.head?_ne (b : Blanks) {t : Text} (rest : ∀ c ∈ t.head?, c ≠ '*' ∧ c ≠ '/') :
    ∀ c ∈ (b.text ++ t).head?, c ≠ '*' ∧ c ≠ '/' := by
  intro c start
  rw [List.head?_append] at start
  cases inside : b.text.head? with
  | none =>
      rw [inside, Option.none_or] at start
      exact rest c start
  | some d =>
      rw [inside, Option.some_or] at start
      obtain rfl := Option.some.inj start
      exact ne_of_isBlank (isBlank_of_head? b.blank inside)

theorem CommentBody.ne_of_head? (body : CommentBody) :
    ∀ c ∈ body.text.head?, c ≠ '*' ∧ c ≠ '/' := by
  cases body with
  | manyRows margin rows closing =>
      apply margin.head?_ne
      intro c start
      have lineFeed : c = '\n' := by cases rows <;> exact (Option.some.inj start).symm
      subst lineFeed
      decide
  | oneRow before line after =>
      apply before.head?_ne
      intro c start
      rw [List.head?_append] at start
      cases begins : line.text.head? with
      | none =>
          rw [begins, Option.none_or] at start
          exact ne_of_isBlank (isBlank_of_head? after.blank start)
      | some d =>
          rw [begins, Option.some_or] at start
          obtain rfl := Option.some.inj start
          exact line.head?_ne begins

theorem Blanks.not_mem (b : Blanks) {c : Char} (marker : c ∈ "*/".toList) : c ∉ b.text := by
  intro member
  obtain ⟨starless, slashless⟩ := ne_of_isBlank (isBlankLine_iff.1 b.blank c member)
  obtain rfl | rfl := List.mem_pair.1 marker
  · exact starless rfl
  · exact slashless rfl

/-- Between blanks a line does not end like the closing. -/
theorem PlainLine.not_closed (line : PlainLine) (before after : Blanks) :
    ¬ "*/".toList <:+ before.text ++ line.text ++ after.text := by
  rintro ⟨front, whole⟩
  obtain ⟨middle, split, marker⟩ | ⟨middle, -, rest⟩ := List.append_eq_append_iff.1 whole
  · have nothing : after.text = [] := List.eq_nil_iff_forall_not_mem.2 fun c member =>
      after.not_mem (marker ▸ List.mem_append_right middle member) member
    rw [nothing, List.append_nil] at marker
    rw [← marker] at split
    obtain ⟨middle, -, part⟩ | ⟨middle, inside, part⟩ := List.append_eq_append_iff.1 split
    · exact line.unclosed ⟨middle, [], by rw [part, List.append_nil]⟩
    -- the closing would begin before the line, so the line would be nothing or begin with its end
    · cases start : line.text with
      | nil =>
          rw [start, List.append_nil] at part
          apply before.not_mem (c := '/') (by decide)
          rw [inside, ← part]
          exact List.mem_append_right _ (by decide)
      | cons c rest =>
          obtain ⟨starless, slashless⟩ := line.head?_ne (c := c) (by rw [start]; rfl)
          have member : c ∈ "*/".toList := by
            rw [part, start]
            exact List.mem_append_right _ List.mem_cons_self
          obtain rfl | rfl := List.mem_pair.1 member
          · exact starless rfl
          · exact slashless rfl
  · apply after.not_mem (c := '/') (by decide)
    rw [rest]
    exact List.mem_append_right _ (by decide)

theorem not_closed_of_getLast? {t : Text} {c : Char} (last : t.getLast? = some c) (other : c ≠ '/') :
    ¬ "*/".toList <:+ t := by
  rintro ⟨front, rfl⟩
  rw [List.getLast?_append] at last
  exact other (Option.some.inj last).symm

/-- The first closing in a comment is the one it is written with. -/
theorem BlockComment.not_closed (c : BlockComment) :
    ¬ "*/".toList <:+ c.body.text ++ c.extraStar := by
  unfold extraStar
  split
  · exact not_closed_of_getLast? (List.getLast?_append_of_ne_nil _ (by decide)) (by decide)
  · rw [List.append_nil]
    cases c.body with
    | oneRow before line after =>
        rw [CommentBody.text, ← List.append_assoc]
        exact line.not_closed before after
    | manyRows margin rows closing =>
        have last := List.getLast?_append_of_ne_nil
          (margin.text ++ rows.flatMap fun r => '\n' :: r.text) (List.cons_ne_nil '\n' closing.text)
        rw [List.append_assoc, List.getLast?_cons] at last
        apply not_closed_of_getLast? last
        cases inside : closing.text.getLast? with
        | none => decide
        | some d =>
            exact (ne_of_isBlank (isBlankLine_iff.1 closing.blank d (List.mem_of_getLast? inside))).2

theorem GutterRow.single (r : GutterRow) : '\n' ∉ r.text := by
  unfold text
  have := r.indent.single
  have := r.line.single
  split <;> simp_all

theorem GutterRow.stripGutter_text (r : GutterRow) : stripGutter r.text = trimEnd r.line.text := by
  rw [text, stripGutter_starred r.indent.blank]
  split
  · rw [afterGutter_spaced]
  · next spaceless =>
      have blank := r.blank (Bool.eq_false_iff.2 spaceless)
      rw [trimEnd_of_isBlankLine blank]
      exact trimEnd_afterGutter_append '*' [] blank

theorem stripGutter_withoutReturn (row : Text) :
    stripGutter (Text.withoutReturn row) = stripGutter row := by
  obtain ⟨dropped, split, blank⟩ := Text.exists_withoutReturn row
  conv_rhs => rw [split]
  exact (stripGutter_append _ (isBlankLine_iff.2 blank)).symm

theorem stripped_manyRows {first rest : Text} (single : '\n' ∉ first) (rows : List GutterRow) :
    (Text.lines (first ++ (rows.flatMap (fun r => '\n' :: r.text) ++ '\n' :: rest))).map stripGutter =
      stripGutter first :: (rows.map (fun r => trimEnd r.line.text) ++
        (Text.lines rest).map stripGutter) := by
  induction rows generalizing first with
  | nil =>
      rw [List.flatMap_nil, List.nil_append, Text.lines_append_lineFeed single, List.map_cons,
        stripGutter_withoutReturn]
      rfl
  | cons r rows ih =>
      rw [List.flatMap_cons, List.append_assoc, List.cons_append,
        Text.lines_append_lineFeed single, List.map_cons, stripGutter_withoutReturn, ih r.single,
        r.stripGutter_text]
      rfl

theorem lines_oneRow {row : Text} (single : '\n' ∉ row) :
    trimLines ((Text.lines row).map stripGutter) = trimLines [stripGutter row] := by
  rw [Text.lines_of_single single]
  split
  · next nothing =>
      subst nothing
      rfl
  · rfl

theorem stripGutter_oneRow (before after : Blanks) (line : PlainLine) :
    stripGutter (before.text ++ (line.text ++ after.text)) = trimEnd line.text := by
  rw [← List.append_assoc, stripGutter_append _ after.blank]
  cases filled : isBlankLine line.text with
  | true =>
      rw [stripGutter_of_isBlankLine (isBlankLine_append.2 ⟨before.blank, filled⟩),
        trimEnd_of_isBlankLine filled]
  | false =>
      obtain ⟨c, first, inside, starless, -⟩ := line.exists_start filled
      exact stripGutter_plain before.blank first inside starless

theorem stripGutter_oneRow_doubled (before after : Blanks) {line : PlainLine}
    (filled : isBlankLine line.text = false) :
    stripGutter (before.text ++ (line.text ++ after.text ++ ['*'])) =
      line.text ++ after.text ++ ['*'] := by
  obtain ⟨c, first, inside, starless, -⟩ := line.exists_start filled
  have begins : (line.text ++ after.text ++ ['*']).head? = some c := by
    rw [List.append_assoc, List.head?_append, first, Option.some_or]
  rw [stripGutter_plain before.blank begins inside starless]
  exact Text.trimEndOf_append_cons (by decide) _ []

namespace BlockComment
variable {c : BlockComment}

theorem stripComment_text_eq (proper : c.documents = true ∨ c.body.text ≠ []) :
    stripComment c.text = (Text.lines (c.body.text ++ c.extraStar)).map stripGutter := by
  rw [text, opening]
  split
  · apply stripComment_documented _ c.not_closed
    intro d first
    cases start : c.body.text with
    | nil =>
        rw [start, List.nil_append, extraStar] at first
        split at first
        · obtain rfl := Option.some.inj first
          decide
        · cases first
    | cons e rest =>
        rw [start] at first
        obtain rfl := Option.some.inj first
        exact (c.body.ne_of_head? e (by rw [start]; rfl)).2
  · next undocumented =>
      obtain ⟨e, rest, start⟩ := List.exists_cons_of_ne_nil (proper.resolve_left undocumented)
      obtain ⟨starless, slashless⟩ := c.body.ne_of_head? e (by rw [start]; rfl)
      have unclosed := c.not_closed
      rw [start, List.cons_append] at unclosed ⊢
      exact stripComment_short starless slashless unclosed

theorem stripGutter_extraStar {blanks : Text} (blank : isBlankLine blanks = true) :
    stripGutter (blanks ++ c.extraStar) = [] := by
  unfold extraStar
  split
  · rw [stripGutter_starred blank]
    rfl
  · rw [List.append_nil, stripGutter_of_isBlankLine blank]

theorem single_extraStar {t : Text} (single : '\n' ∉ t) : '\n' ∉ t ++ c.extraStar := by
  unfold extraStar
  split <;> simpa using single

theorem trimLines_manyRows {margin closing : Blanks} {rows : List GutterRow}
    (body : c.body = .manyRows margin rows closing) :
    trimLines (stripComment c.text) = trimLines (c.body.lines.map trimEnd) := by
  have some : c.body.text ≠ [] := by
    rw [body, CommentBody.text]
    simp
  have blank : ∀ row ∈ (Text.lines (closing.text ++ c.extraStar)).map stripGutter,
      isBlankLine row = true := by
    rw [Text.lines_of_single (single_extraStar closing.single)]
    split
    · exact List.forall_mem_nil _
    · rw [List.map_singleton, stripGutter_extraStar closing.blank]
      exact List.forall_mem_singleton.2 rfl
  rw [stripComment_text_eq (.inr some), body, CommentBody.text, CommentBody.lines, List.map_map,
    List.append_assoc, List.append_assoc, List.cons_append, stripped_manyRows margin.single,
    stripGutter_of_isBlankLine margin.blank]
  exact Text.trimLines_append _ (List.forall_mem_singleton.2 (rfl : isBlankLine [] = true)) blank

section OneRow
variable {before after : Blanks} {line : PlainLine} (body : c.body = .oneRow before line after)
include body

theorem leftover?_oneRow : c.leftover? =
    if c.doubled then
      if isBlankLine line.text then none else some (line.text ++ after.text ++ ['*'])
    else if c.documents = false ∧ c.body.text = [] then some ['/'] else none := by
  rw [leftover?, body]
  rfl

theorem single_oneRow : '\n' ∉ c.body.text ++ c.extraStar := by
  apply single_extraStar
  rw [body, CommentBody.text, List.mem_append, List.mem_append]
  exact not_or_intro before.single (not_or_intro line.single after.single)

theorem isBlankLine_oneRow (blank : isBlankLine line.text = true) :
    isBlankLine c.body.text = true := by
  rw [body]
  exact isBlankLine_append.2 ⟨before.blank, isBlankLine_append.2 ⟨blank, after.blank⟩⟩

theorem line_of_bare (bare : c.body.text = []) : line.text = [] := by
  rw [body, CommentBody.text, List.append_eq_nil_iff, List.append_eq_nil_iff] at bare
  exact bare.2.1

theorem trimLines_oneRow (nothing : c.leftover? = none) :
    trimLines (stripComment c.text) = trimLines (c.body.lines.map trimEnd) := by
  have lines : c.body.lines = [line.text] := by rw [body, CommentBody.lines]
  rw [leftover?_oneRow body] at nothing
  rw [lines, List.map_singleton]
  by_cases proper : c.documents = true ∨ c.body.text ≠ []
  · rw [stripComment_text_eq proper, lines_oneRow (single_oneRow body)]
    split at nothing
    · split at nothing
      · next blank =>
          rw [stripGutter_extraStar (isBlankLine_oneRow body blank), trimEnd_of_isBlankLine blank]
      · cases nothing
    · next single =>
        rw [extraStar, if_neg single, List.append_nil, body, CommentBody.text, stripGutter_oneRow]
  · obtain ⟨undocumented, empty⟩ := not_or.1 proper
    have bare : c.body.text = [] := not_not.1 empty
    have blank : line.text = [] := line_of_bare body bare
    rw [text, opening, if_neg undocumented, bare, blank, extraStar]
    split at nothing
    · next doubled =>
        rw [if_pos doubled]
        decide
    · rw [if_pos ⟨Bool.eq_false_iff.2 undocumented, bare⟩] at nothing
      cases nothing

theorem stripped_doubled (doubled : c.doubled = true) (filled : isBlankLine line.text = false) :
    stripComment c.text = [line.text ++ after.text ++ ['*']] ∧
      trimLines [line.text ++ after.text ++ ['*']] ≠ trimLines [trimEnd line.text] := by
  have some : c.body.text ≠ [] := fun bare => by
    rw [line_of_bare body bare] at filled
    cases filled
  have starred : c.body.text ++ c.extraStar =
      before.text ++ (line.text ++ after.text ++ ['*']) := by
    rw [body, CommentBody.text, extraStar, if_pos doubled, List.append_assoc]
  refine ⟨?_, fun same => ?_⟩
  · rw [stripComment_text_eq (.inr some), Text.lines_of_single (single_oneRow body), starred,
      if_neg (by simp), List.map_singleton, stripGutter_oneRow_doubled before after filled]
  · have visible : ¬ isBlankLine (line.text ++ after.text ++ ['*']) = true := fun blank =>
      (ne_of_isBlank (isBlankLine_iff.1 blank '*' (by simp))).1 rfl
    obtain ⟨dropped, whole⟩ := Text.exists_eq_trimEndOf_append isBlank line.text
    rw [Text.trimLines_singleton, if_neg visible, Text.trimLines_singleton] at same
    split at same
    · cases same
    · have shorter := congrArg List.length (List.singleton_inj.1 same)
      have longer := congrArg List.length whole
      simp only [List.length_append, List.length_singleton] at shorter longer
      unfold trimEnd at shorter
      omega

end OneRow

theorem leftover_eq_some {t : Text} (left : c.leftover? = some t) :
    stripComment c.text = [t] ∧ trimLines [t] ≠ trimLines (c.body.lines.map trimEnd) := by
  cases body : c.body with
  | manyRows margin rows closing =>
      rw [leftover?, body] at left
      cases left
  | oneRow before line after =>
      rw [leftover?_oneRow body] at left
      rw [CommentBody.lines, List.map_singleton]
      split at left
      · next doubled =>
          split at left
          · cases left
          · next filled =>
              obtain rfl := Option.some.inj left
              exact stripped_doubled body doubled (Bool.eq_false_iff.2 filled)
      · next single =>
          split at left
          · next short =>
              obtain rfl := Option.some.inj left
              rw [line_of_bare body short.2, text, opening, short.1, short.2, extraStar, if_neg single]
              decide
          · cases left

end BlockComment

/-- A block comment without its markers has the lines it was written for, up to blank lines at the
ends and blanks at line ends, exactly if nothing of the markers is left; and what is left of them is
all there is. -/
theorem stripComment_text (c : BlockComment) :
    (c.leftover? = none ↔
      trimLines (stripComment c.text) = trimLines (c.body.lines.map trimEnd)) ∧
    ∀ t, c.leftover? = some t → stripComment c.text = [t] := by
  refine ⟨⟨?_, ?_⟩, fun t left => (BlockComment.leftover_eq_some left).1⟩
  · intro nothing
    cases body : c.body with
    | oneRow before line after => exact body ▸ BlockComment.trimLines_oneRow body nothing
    | manyRows margin rows closing => exact body ▸ BlockComment.trimLines_manyRows body
  · intro same
    cases left : c.leftover? with
    | none => rfl
    | some t =>
        obtain ⟨whole, other⟩ := BlockComment.leftover_eq_some left
        exact absurd (whole ▸ same) other

/-- A line between spaces and two stars on either side. -/
def doubledComment : BlockComment :=
  let space : Blanks := ⟨[' '], by decide, rfl⟩
  ⟨true, true, .oneRow space ⟨"Adds one.".toList, by decide, by decide, by simp; decide⟩ space⟩

/-- The empty comment between short markers. -/
def bareComment : BlockComment :=
  let nothing : Blanks := ⟨[], by decide, rfl⟩
  ⟨false, false, .oneRow nothing ⟨[], by decide, by decide, nofun⟩ nothing⟩

/-- A star of the closing stays behind the line, and the slash of a closing whose star the opening
took is taken for a line. -/
theorem stripComment_leftovers :
    (doubledComment.text = "/** Adds one. **/".toList ∧
      doubledComment.body.lines = ["Adds one.".toList] ∧
      stripComment doubledComment.text = ["Adds one. *".toList]) ∧
    bareComment.text = "/**/".toList ∧ bareComment.body.lines = [[]] ∧
      stripComment bareComment.text = ["/".toList] := by
  decide

end ApiReference.Declaration.Documentation
