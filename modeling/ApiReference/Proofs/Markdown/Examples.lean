import ApiReference.Proofs.Markdown.Lines
import ApiReference.Proofs.Text.Lowercase
import ApiReference.Proofs.Text.Words

/-!
# Examples in Markdown

The examples of a document of plain elements are those that its fenced blocks are, with the title
of the last heading before each. An element that is not plain spoils a document of which all the
rest is plain. Main statement: `examplesIn_eq_examples`.
-/

namespace ApiReference.Markdown
open ApiReference.Package

/-- The blocks of a document in order, each with the title it stands under. -/
def blocks : Option Text → List Element → List (Option Text × Fenced)
  | _, [] => []
  | _, .heading h :: doc => blocks (some h.title) doc
  | title, .prose .. :: doc => blocks title doc
  | title, .fenced b :: doc => (title, b) :: blocks title doc

namespace Fenced
variable (b : Fenced) (concept source : Text)

def code : Text := Text.join ['\n'] b.body

/-- Whether there is something to see in a block, and every word of a concept among it. -/
def Shows : Prop :=
  (∃ line ∈ b.body, ∃ c ∈ line, Text.isBlank c = false) ∧
    ∀ word ∈ Text.words concept, Text.lower word <:+: Text.lower b.code

instance : Decidable (b.Shows concept) := inferInstanceAs (Decidable (_ ∧ _))

def toExample (title : Option Text) : CodeExample :=
  ⟨b.code, b.language, source, conceptTerms concept, title, some b.body.length⟩

def toCodeBlock (title : Option Text) : CodeBlock := ⟨title, b.fence, b.body⟩

end Fenced

/-- The first ten blocks of a document that show a concept. -/
def examples (doc : List Element) (concept source : Text) : List CodeExample :=
  (((blocks none doc).filter fun b => b.2.Shows concept).take 10).map fun b =>
    b.2.toExample concept source b.1

theorem codeBlocksFrom_inside {title : Option Text} {f : Fence} {body : List Text} {closing : Text}
    (opened : ∀ line ∈ body, f.isClosedBy line = false) (closed : f.isClosedBy closing = true)
    (seen lines : List Text) :
    codeBlocksFrom title (.inside f seen) (body ++ closing :: lines) =
      ⟨title, f, seen.reverse ++ body⟩ :: codeBlocksFrom title .outside lines := by
  induction body generalizing seen with
  | nil => simp [codeBlocksFrom, closed]
  | cons line body ih =>
      have goesOn := ih (fun l member => opened l (List.mem_cons_of_mem _ member)) (line :: seen)
      rw [List.cons_append, codeBlocksFrom, opened line List.mem_cons_self,
        if_neg Bool.false_ne_true, goesOn]
      simp

theorem codeBlocksFrom_heading {line title : Text} (read : heading? line = some title)
    (last : Option Text) (lines : List Text) :
    codeBlocksFrom last .outside (line :: lines) = codeBlocksFrom (some title) .outside lines := by
  simp only [codeBlocksFrom, read]

theorem codeBlocksFrom_opening {line : Text} {f : Fence} (noHeading : heading? line = none)
    (opens : fence? line = some f) (title : Option Text) (lines : List Text) :
    codeBlocksFrom title .outside (line :: lines) = codeBlocksFrom title (.inside f []) lines := by
  simp only [codeBlocksFrom, noHeading, opens]

theorem codeBlocksFrom_prose {line : Text} (noHeading : heading? line = none)
    (noFence : fence? line = none) (title : Option Text) (lines : List Text) :
    codeBlocksFrom title .outside (line :: lines) = codeBlocksFrom title .outside lines := by
  simp only [codeBlocksFrom, noHeading, noFence]

theorem codeBlocksFrom_fenced {b : Fenced} (plain : (Element.fenced b).IsPlain)
    (title : Option Text) (lines : List Text) :
    codeBlocksFrom title .outside (b.lines ++ lines) =
      b.toCodeBlock title :: codeBlocksFrom title .outside lines := by
  have opened : ∀ line ∈ b.body, b.fence.isClosedBy line = false := fun line member =>
    Bool.eq_false_iff.2 fun closed => plain line member (isClosedBy_iff.1 closed)
  have closed := b.isClosedBy_of_closesFence b.closesFence_closing
  rw [Fenced.lines, List.cons_append, List.append_assoc, List.singleton_append,
    codeBlocksFrom_opening b.heading?_opening b.fence?_opening,
    codeBlocksFrom_inside opened closed, List.reverse_nil, List.nil_append, Fenced.toCodeBlock]

/-- One plain element moves a reading on as it moves the document on. -/
theorem codeBlocksFrom_lines {doc : List Element} (plain : ∀ e ∈ doc, e.IsPlain)
    (title : Option Text) : codeBlocksFrom title .outside (doc.flatMap Element.lines) =
      (blocks title doc).map fun b => b.2.toCodeBlock b.1 := by
  induction doc generalizing title with
  | nil => simp only [List.flatMap_nil, codeBlocksFrom, blocks, List.map_nil]
  | cons e doc ih =>
      obtain ⟨first, rest⟩ := List.forall_mem_cons.1 plain
      rw [List.flatMap_cons]
      cases e with
      | heading h =>
          have read := h.heading?_line.trans (h.titleAfter_rest.2 first)
          rw [Element.lines, List.singleton_append, codeBlocksFrom_heading read, ih rest, blocks]
      | prose line =>
          have noHeading := Option.not_isSome_iff_eq_none.1 (mt isSome_heading?_iff.1 first.1)
          have noFence := Option.not_isSome_iff_eq_none.1 (mt isSome_fence?_iff.1 first.2)
          rw [Element.lines, List.singleton_append, codeBlocksFrom_prose noHeading noFence, ih rest,
            blocks]
      | fenced b =>
          rw [Element.lines, codeBlocksFrom_fenced first, ih rest, blocks, List.map_cons]

theorem mentions_toCodeBlock (b : Fenced) (title : Option Text) (concept : Text) :
    (b.toCodeBlock title).mentions (conceptTerms concept) = decide (b.Shows concept) := by
  have newline : ∀ c ∈ ['\n'], Text.isBlank c = true := by decide
  have empty : Text.trim b.code = [] ↔ ∀ line ∈ b.body, ∀ c ∈ line, Text.isBlank c = true := by
    rw [Text.trim_eq_nil_iff, Fenced.code, Text.forall_mem_join newline]
  rw [Bool.eq_iff_iff, decide_eq_true_iff, CodeBlock.mentions, Bool.and_eq_true,
    Bool.not_eq_true', List.isEmpty_eq_false_iff, List.all_eq_true]
  refine and_congr ?_ ?_
  · change Text.trim b.code ≠ [] ↔ _
    rw [ne_eq, empty]
    simp only [not_forall, Bool.not_eq_true, exists_prop]
  · simp only [conceptTerms, List.forall_mem_map, Text.occursIn_iff]
    rfl

theorem examplesIn_of_codeBlocks {markdown : Text} {bs : List (Option Text × Fenced)}
    (read : codeBlocks markdown = bs.map fun b => b.2.toCodeBlock b.1) (concept source : Text) :
    examplesIn markdown concept source =
      ((bs.filter fun b => b.2.Shows concept).take 10).map fun b =>
        b.2.toExample concept source b.1 := by
  have kept : (fun b : Option Text × Fenced =>
      (b.2.toCodeBlock b.1).mentions (conceptTerms concept)) =
        fun b => decide (b.2.Shows concept) := by
    funext b
    exact mentions_toCodeBlock b.2 b.1 concept
  rw [examplesIn, read, List.filter_map, Function.comp_def, kept, ← List.map_take, List.map_map]
  rfl

theorem isLine_append {t u : Text} : IsLine (t ++ u) ↔ IsLine t ∧ IsLine u := by
  simp only [IsLine, List.mem_append, not_or]
  exact and_and_and_comm

theorem isLine_replicate {c : Char} (n : Nat) (feed : c ≠ '\n') (back : c ≠ '\r') :
    IsLine (List.replicate n c) :=
  ⟨fun member => feed (List.eq_of_mem_replicate member).symm,
    fun member => back (List.eq_of_mem_replicate member).symm⟩

theorem isLine_of_isGap {t : Text} (gap : ∀ c ∈ t, isGap c = true) : IsLine t :=
  ⟨fun member => absurd (gap _ member) (by decide), fun member => absurd (gap _ member) (by decide)⟩

theorem Heading.isLine_line (h : Heading) : IsLine h.line := by
  have sign (n : Nat) : IsLine (List.replicate n '#') := isLine_replicate n (by decide) (by decide)
  simp only [line, closing, isLine_append]
  exact ⟨isLine_replicate _ (by decide) (by decide), sign _, isLine_of_isGap h.gap_isGap,
    h.title_isLine, isLine_of_isGap h.closingGap_isGap, sign _, isLine_of_isGap h.endGap_isGap⟩

theorem Fenced.isLine_lines (b : Fenced) : ∀ line ∈ b.lines, IsLine line := by
  have space (n : Nat) : IsLine (spaces n) := isLine_replicate n (by decide) (by decide)
  have mark (n : Nat) : IsLine (List.replicate n b.mark) := by
    obtain mark | mark := b.mark_eq <;> rw [mark] <;>
      exact isLine_replicate n (by decide) (by decide)
  have info : IsLine b.info :=
    ⟨fun member => absurd (b.info_isLanguage _ member) (by decide),
      fun member => absurd (b.info_isLanguage _ member) (by decide)⟩
  simp only [lines, List.forall_mem_cons, List.forall_mem_append, opening, closing, marks,
    isLine_append]
  exact ⟨⟨space _, mark _, isLine_of_isGap b.gap_isGap, info, isLine_of_isGap b.endGap_isGap⟩,
    b.body_isLine, ⟨space _, mark _, isLine_of_isGap b.closingGap_isGap⟩, List.forall_mem_nil _⟩

theorem Element.isLine_lines (e : Element) : ∀ line ∈ e.lines, IsLine line := by
  cases e with
  | heading h => exact List.forall_mem_singleton.2 h.isLine_line
  | prose line isLine => exact List.forall_mem_singleton.2 isLine
  | fenced b => exact b.isLine_lines

/-- The text of a document, every line of it ended by a line feed. -/
def write (doc : List Element) : Text := (doc.flatMap Element.lines).flatMap (· ++ ['\n'])

theorem splitOn_line {line : Text} (isLine : IsLine line) (t : Text) :
    Text.splitOn (· == '\n') (line ++ '\n' :: t) = line :: Text.splitOn (· == '\n') t := by
  have other : ∀ c ∈ line, (c == '\n') = false := fun c member =>
    beq_false_of_ne (ne_of_mem_of_not_mem member isLine.1)
  rw [Text.splitOn_append_cons (by decide), Text.splitOn_of_forall other, List.singleton_append]

theorem splitOn_lines {ls : List Text} (isLine : ∀ line ∈ ls, IsLine line) :
    Text.splitOn (· == '\n') (ls.flatMap (· ++ ['\n'])) = ls ++ [[]] := by
  induction ls with
  | nil => rfl
  | cons line ls ih =>
      obtain ⟨first, rest⟩ := List.forall_mem_cons.1 isLine
      rw [List.flatMap_cons, List.append_assoc, List.singleton_append, splitOn_line first, ih rest,
        List.cons_append]

theorem stripEnd_line {line : Text} (isLine : IsLine line) : Text.stripEnd ['\r'] line = none := by
  have other : '\r' ∉ line.reverse := fun member => isLine.2 (List.mem_reverse.1 member)
  rw [Text.stripEnd, List.reverse_singleton]
  cases backwards : line.reverse with
  | nil => rfl
  | cons c t =>
      rw [backwards] at other
      rw [Text.stripStart, if_neg (List.ne_and_not_mem_of_not_mem_cons other).1]
      rfl

theorem lines_write (doc : List Element) : Text.lines (write doc) = doc.flatMap Element.lines := by
  have isLine : ∀ line ∈ doc.flatMap Element.lines, IsLine line := by
    intro line member
    obtain ⟨e, -, inside⟩ := List.mem_flatMap.1 member
    exact e.isLine_lines line inside
  have whole : ∀ line ∈ doc.flatMap Element.lines,
      (Text.stripEnd ['\r'] line).getD line = id line := fun line member => by
    rw [stripEnd_line (isLine line member), Option.getD_none, id]
  rw [Text.lines, write, splitOn_lines isLine]
  simp only [List.dropLast_concat, List.getLast?_concat, List.map_congr_left whole, List.map_id]
  exact List.append_nil _

theorem codeBlocks_write (doc : List Element) :
    codeBlocks (write doc) = codeBlocksFrom none .outside (doc.flatMap Element.lines) := by
  rw [codeBlocks, lines_write]

/-- A block of one letter, plain and with something to see. -/
def letter : Fenced where
  indent := 0
  mark := '~'
  count := 3
  gap := []
  info := []
  endGap := []
  body := [['x']]
  closingIndent := 0
  closingCount := 3
  closingGap := []
  indent_le := by decide
  mark_eq := .inr rfl
  three_le_count := by decide
  gap_isGap := by decide
  info_isLanguage := by decide
  endGap_isGap := by decide
  body_isLine := by unfold IsLine; decide
  body_open := by decide
  closingIndent_le := by decide
  count_le_closing := by decide
  closingGap_isGap := by decide

theorem letter_isPlain : (Element.fenced letter).IsPlain := by
  decide

theorem shows_letter : letter.Shows [] := by
  decide

def letterLine : Element := .prose ['x'] (by unfold IsLine; decide) rfl rfl

theorem letterLine_isPlain : letterLine.IsPlain := by
  decide

/-- A document that a line stands before the block of a letter in is read with the title that is
read on that line. -/
theorem examplesIn_before_letter {e : Element} {line source : Text} (single : e.lines = [line])
    (noFence : heading? line = none → fence? line = none) :
    examplesIn (write [e, .fenced letter]) [] source =
      [letter.toExample [] source (heading? line)] := by
  have read : codeBlocks (write [e, .fenced letter]) =
      [(heading? line, letter)].map fun b => b.2.toCodeBlock b.1 := by
    have after (title : Option Text) : codeBlocksFrom title .outside letter.lines =
        [letter.toCodeBlock title] := by
      have := codeBlocksFrom_fenced letter_isPlain title []
      rwa [List.append_nil] at this
    rw [codeBlocks_write, List.flatMap_cons, single, List.flatMap_cons, List.flatMap_nil,
      List.append_nil, List.singleton_append, Element.lines]
    cases title : heading? line with
    | none => exact (codeBlocksFrom_prose title (noFence title) none _).trans (after none)
    | some t => exact (codeBlocksFrom_heading title none _).trans (after (some t))
  rw [examplesIn_of_codeBlocks read]
  simp [shows_letter]

/-- A line that opens a block is no part of it, nor are those of another block. -/
theorem length_body_lt (lines : List Text) :
    (∀ title, ∀ b ∈ codeBlocksFrom title .outside lines, b.body.length < lines.length) ∧
    ∀ title f seen, ∀ b ∈ codeBlocksFrom title (.inside f seen) lines,
      b.body.length ≤ seen.length + lines.length := by
  induction lines with
  | nil => simp [codeBlocksFrom]
  | cons line lines ih =>
      obtain ⟨outside, inside⟩ := ih
      rw [List.length_cons]
      constructor
      · intro title b member
        rw [codeBlocksFrom] at member
        split at member
        · next t _ => exact Nat.lt_succ_of_lt (outside (some t) b member)
        · split at member
          · next f _ =>
              have := inside title f [] b member
              rw [List.length_nil, Nat.zero_add] at this
              exact Nat.lt_succ_of_le this
          · exact Nat.lt_succ_of_lt (outside title b member)
      · intro title f seen b member
        rw [codeBlocksFrom] at member
        split at member
        · obtain rfl | later := List.mem_cons.1 member
          · rw [List.length_reverse]
            exact Nat.le_add_right _ _
          · have := outside title b later
            omega
        · have := inside title f (line :: seen) b member
          rw [List.length_cons] at this
          omega

theorem exists_lines_eq {markdown concept source : Text} {x : CodeExample}
    (member : x ∈ examplesIn markdown concept source) :
    ∃ b ∈ codeBlocks markdown, x.lines = some b.body.length := by
  obtain ⟨b, taken, rfl⟩ := List.mem_map.1 member
  exact ⟨b, (List.mem_filter.1 (List.mem_of_mem_take taken)).1, rfl⟩

/-- Whether an element has a document read wrongly of which all else is plain. -/
def Element.Spoils (e : Element) : Prop :=
  ∃ doc : List Element, (∀ other ∈ doc, other.IsPlain) ∧
    ∀ source, examplesIn (write (e :: doc)) [] source ≠ examples (e :: doc) [] source

theorem Heading.spoils (h : Heading) (odd : ¬ (Element.heading h).IsPlain) :
    (Element.heading h).Spoils := by
  refine ⟨[.fenced letter], by simpa using letter_isPlain, fun source same => ?_⟩
  rw [examplesIn_before_letter rfl fun _ => h.fence?_line] at same
  have right : examples [.heading h, .fenced letter] [] source =
      [letter.toExample [] source (some h.title)] := by
    simp [examples, blocks, shows_letter]
  rw [right] at same
  injection same with same
  have read : heading? h.line = some h.title := congrArg CodeExample.context same
  rw [h.heading?_line, h.titleAfter_rest] at read
  exact odd read

theorem exists_marks_of_fence? {line : Text} {f : Fence} (opens : fence? line = some f) :
    ∃ mark more, (mark = backtick ∨ mark = '~') ∧ f.marks = mark :: more := by
  rw [fence?] at opens
  cases start : afterIndent line with
  | nil =>
      rw [start] at opens
      cases opens
  | cons c t =>
      simp only [start] at opens
      split at opens
      · next valid =>
          obtain rfl := Option.some.inj opens
          rw [Bool.and_eq_true, isMark_iff] at valid
          refine ⟨c, t.takeWhile (· == c), valid.1, ?_⟩
          exact List.takeWhile_cons_of_pos (p := (· == c)) (beq_self_eq_true c)
      · cases opens

section
variable {line : Text} {isLine : IsLine line} {noHeading : isHeading line = false}
  {noFence : opensFence line = false}

theorem spoils_of_heading? {t : Text} (title : heading? line = some t) :
    (Element.prose line isLine noHeading noFence).Spoils := by
  refine ⟨[.fenced letter], by simpa using letter_isPlain, fun source same => ?_⟩
  rw [examplesIn_before_letter rfl fun none => absurd (title.symm.trans none) (by simp),
    title] at same
  have right : examples [.prose line isLine noHeading noFence, .fenced letter] [] source =
      [letter.toExample [] source none] := by
    simp [examples, blocks, shows_letter]
  rw [right] at same
  injection same with same
  exact Option.some_ne_none _ (congrArg CodeExample.context same)

theorem spoils_of_fence? (noTitle : heading? line = none) {f : Fence}
    (opens : fence? line = some f) :
    (Element.prose line isLine noHeading noFence).Spoils := by
  have goesOn : f.isClosedBy ['x'] = false := by
    obtain ⟨mark, more, valid, marks⟩ := exists_marks_of_fence? opens
    rw [Bool.eq_false_iff, ne_eq, isClosedBy_iff, marks]
    intro begins
    have first := (List.cons_prefix_cons.1 (show mark :: more <+: 'x' :: [] from begins)).1
    obtain rfl | rfl := valid <;> exact absurd first (by decide)
  refine ⟨[letterLine], by simpa using letterLine_isPlain, fun source same => ?_⟩
  -- The block that is opened here takes the letter in and is never closed.
  have read : codeBlocks (write [.prose line isLine noHeading noFence, letterLine]) =
      [⟨none, f, [['x']]⟩] := by
    rw [codeBlocks_write]
    change codeBlocksFrom none .outside [line, ['x']] = _
    rw [codeBlocksFrom_opening noTitle opens, codeBlocksFrom, goesOn, if_neg Bool.false_ne_true,
      codeBlocksFrom]
    rfl
  rw [examplesIn, read] at same
  cases same

theorem spoils_of_prose (odd : ¬ (Element.prose line isLine noHeading noFence).IsPlain) :
    (Element.prose line isLine noHeading noFence).Spoils := by
  cases title : heading? line with
  | some t => exact spoils_of_heading? title
  | none =>
      have noTitle : ¬ LooksLikeHeading line := by
        rw [← isSome_heading?_iff, title]
        exact Bool.false_ne_true
      have looks : LooksLikeFence line := by
        simpa only [Element.IsPlain, noTitle, not_false_eq_true, true_and, not_not] using odd
      obtain ⟨f, opens⟩ := Option.isSome_iff_exists.1 (isSome_fence?_iff.2 looks)
      exact spoils_of_fence? title opens

end

theorem Fenced.spoils (b : Fenced) (odd : ¬ (Element.fenced b).IsPlain) :
    (Element.fenced b).Spoils := by
  have closes : ∃ line ∈ b.body, b.fence.isClosedBy line = true := by
    simpa only [Element.IsPlain, not_forall, exists_prop, not_not, isClosedBy_iff,
      Fenced.marks_fence] using odd
  obtain ⟨line, first⟩ := Option.isSome_iff_exists.1 (List.find?_isSome.2 closes)
  obtain ⟨closed, before, after, body, opened⟩ := List.find?_eq_some_iff_append.1 first
  have shows : b.Shows [] := by
    obtain ⟨more, marks⟩ := b.exists_marks_eq
    rw [isClosedBy_iff, b.marks_fence, marks] at closed
    have inside : b.mark ∈ line :=
      (List.dropWhile_sublist Text.isBlank).mem (closed.mem List.mem_cons_self)
    refine ⟨⟨line, ?_, b.mark, inside, (visible_mark b.mark_eq).1⟩, List.forall_mem_nil _⟩
    rw [body]
    exact List.mem_append_right _ List.mem_cons_self
  have early : codeBlocks (write [.fenced b]) = ⟨none, b.fence, before⟩ ::
      codeBlocksFrom none .outside (after ++ [b.closing]) := by
    rw [codeBlocks_write, List.flatMap_cons, List.flatMap_nil, List.append_nil, Element.lines,
      Fenced.lines, codeBlocksFrom_opening b.heading?_opening b.fence?_opening, body,
      List.append_assoc, List.cons_append, codeBlocksFrom_inside (by simpa using opened) closed,
      List.reverse_nil, List.nil_append]
  refine ⟨[], List.forall_mem_nil _, fun source same => ?_⟩
  have right : examples [.fenced b] [] source = [b.toExample [] source none] := by
    simp [examples, blocks, shows]
  have member : b.toExample [] source none ∈ examplesIn (write [.fenced b]) [] source := by
    rw [same, right]
    exact List.mem_singleton_self _
  obtain ⟨short, read, lines⟩ := exists_lines_eq member
  have whole : b.body.length = short.body.length := Option.some.inj lines
  rw [early] at read
  rw [body, List.length_append, List.length_cons] at whole
  obtain rfl | later := List.mem_cons.1 read
  · simp only at whole
    omega
  · have fewer := (length_body_lt _).1 none short later
    rw [List.length_append, List.length_singleton] at fewer
    omega

theorem Element.spoils {e : Element} (odd : ¬ e.IsPlain) : e.Spoils := by
  cases e with
  | heading h => exact h.spoils odd
  | prose => exact spoils_of_prose odd
  | fenced b => exact b.spoils odd

theorem examplesIn_of_plain {doc : List Element} (plain : ∀ e ∈ doc, e.IsPlain) {markdown : Text}
    (written : Text.lines markdown = doc.flatMap Element.lines) (concept source : Text) :
    examplesIn markdown concept source = examples doc concept source := by
  have read : codeBlocks markdown = (blocks none doc).map fun b => b.2.toCodeBlock b.1 := by
    rw [codeBlocks, written, codeBlocksFrom_lines plain]
  exact examplesIn_of_codeBlocks read concept source

theorem Element.isPlain_iff {e : Element} : e.IsPlain ↔ ¬ e.Spoils := by
  constructor
  · rintro plain ⟨doc, others, wrong⟩
    have all : ∀ other ∈ e :: doc, other.IsPlain := List.forall_mem_cons.2 ⟨plain, others⟩
    exact wrong [] (examplesIn_of_plain all (lines_write _) [] [])
  · intro fits
    by_contra odd
    exact fits (Element.spoils odd)

/-- The examples that are read in a document of plain elements, however its lines are ended, are
those of its blocks. No other element is read as what it is in every document. -/
theorem examplesIn_eq_examples (doc : List Element) {markdown : Text}
    (written : Text.lines markdown = doc.flatMap Element.lines) (concept source : Text) :
    ((∀ e ∈ doc, e.IsPlain) →
      examplesIn markdown concept source = examples doc concept source) ∧
    ∀ e ∈ doc, e.IsPlain ↔ ¬ e.Spoils :=
  ⟨fun plain => examplesIn_of_plain plain written concept source, fun _ _ => Element.isPlain_iff⟩

/-- A block under three backticks with a word of information. -/
def script (info : Text) (body : List Text) (isLanguage : ∀ c ∈ info, isLanguageChar c = true)
    (isLine : ∀ line ∈ body, IsLine line)
    (opened : ∀ line ∈ body, closesFence backtick 3 line = false) : Fenced where
  indent := 0
  mark := backtick
  count := 3
  gap := []
  info := info
  endGap := []
  body := body
  closingIndent := 0
  closingCount := 3
  closingGap := []
  indent_le := by decide
  mark_eq := .inl rfl
  three_le_count := by decide
  gap_isGap := by decide
  info_isLanguage := isLanguage
  endGap_isGap := by decide
  body_isLine := isLine
  body_open := opened
  closingIndent_le := by decide
  count_le_closing := by decide
  closingGap_isGap := by decide

/-- A second-order heading that two more signs close. -/
def usage : Heading where
  indent := 1
  level := 2
  gap := [' ']
  title := "Usage".toList
  closingGap := [' ']
  closingSigns := 2
  endGap := []
  indent_le := by decide
  level_pos := by decide
  level_le := by decide
  gap_isGap := by decide
  closingGap_isGap := by decide
  endGap_isGap := by decide
  title_isLine := by unfold IsLine; decide
  title_apart := by decide
  title_starts := by decide
  title_ends := by decide
  closing_apart := by decide

def guide : List Element := [
  .heading usage,
  .prose "Run ```npm i x``` first.".toList (by unfold IsLine; decide) (by decide) (by decide),
  .fenced (script "TSX".toList ["use(x)".toList, "# no heading".toList] (by decide)
    (by unfold IsLine; decide) (by decide)),
  .fenced (script [] ["npm i y".toList] (by decide) (by unfold IsLine; decide) (by decide))]

theorem examplesIn_guide : (∀ e ∈ guide, e.IsPlain) ∧
    examplesIn (write guide) "Use X".toList "readme".toList =
      [⟨"use(x)\n# no heading".toList, "tsx".toList, "readme".toList, ["use".toList, "x".toList],
        some "Usage".toList, some 2⟩] := by
  have plain : ∀ e ∈ guide, e.IsPlain := by decide
  refine ⟨plain, ?_⟩
  rw [(examplesIn_eq_examples guide (lines_write guide) _ _).1 plain]
  decide

/-- A line that starts with code opens no block. It is read as if it did, so that the block after it
is taken for its end and the rest is lost. -/
def inlineCode : List Element := [
  .prose "```npm i x``` installs it".toList (by unfold IsLine; decide) (by decide) (by decide),
  .prose [] (by unfold IsLine; decide) (by decide) (by decide),
  .fenced (script "js".toList ["use(x)".toList] (by decide) (by unfold IsLine; decide) (by decide))]

theorem examplesIn_inlineCode :
    write inlineCode = "```npm i x``` installs it\n\n```js\nuse(x)\n```\n".toList ∧
    examples inlineCode [] "readme".toList =
      [⟨"use(x)".toList, "js".toList, "readme".toList, [], none, some 1⟩] ∧
    examplesIn (write inlineCode) [] "readme".toList = [] := by
  refine ⟨?_, ?_, ?_⟩ <;> decide

end ApiReference.Markdown
