import ApiReference.Declaration.Clause
import ApiReference.Proofs.Text.BlankLines

/-!
# Parts of a clause

A clause is split exactly at the commas before which no bracket is open, and nothing but these commas
and white space around them gets lost; so parts in which all brackets are closed again come back from
the text that lists them. Main statement: `splitTopLevel_divides`.
-/

namespace ApiReference.Declaration
open Text (isBlank isBlankLine)

def isOpening (c : Char) : Bool := c = '<' || c = '(' || c = '[' || c = '{'

def isClosing (c : Char) : Bool := c = '>' || c = ')' || c = ']' || c = '}'

/-- How many arrows there are in a text. -/
def arrows : Text → Nat
  | [] => 0
  | c :: t => arrows t + if c = '=' ∧ t.head? = some '>' then 1 else 0

/-- How many more brackets a text opens than it closes. The head of an arrow is no bracket. -/
def level (t : Text) : Int := t.countP isOpening + arrows t - t.countP isClosing

theorem arrows_append (a b : Text) : arrows (a ++ b) =
    arrows a + arrows b + if a.getLast? = some '=' ∧ b.head? = some '>' then 1 else 0 := by
  induction a with
  | nil => simp [arrows]
  | cons c a ih =>
      rw [List.cons_append, arrows, arrows, ih]
      cases a with
      | nil => simp [arrows]
      | cons d a => simp [Nat.add_right_comm]

theorem level_append (a b : Text) : level (a ++ b) =
    level a + level b + if a.getLast? = some '=' ∧ b.head? = some '>' then 1 else 0 := by
  simp only [level, arrows_append, List.countP_append]
  split <;> omega

theorem level_append_of_apart {a b : Text} (apart : a.getLast? ≠ some '=') :
    level (a ++ b) = level a + level b := by
  rw [level_append, if_neg fun arrow => apart arrow.1, Int.add_zero]

theorem level_singleton (c : Char) :
    level [c] = if isOpening c then 1 else if isClosing c then -1 else 0 := by
  simp only [level, arrows, List.countP_singleton]
  by_cases opening : isOpening c = true
  · have other : isClosing c = false := by
      simp only [isOpening, Bool.or_eq_true, decide_eq_true_eq] at opening
      rcases opening with ((rfl | rfl) | rfl) | rfl <;> rfl
    simp [opening, other]
  · by_cases closing : isClosing c = true <;> simp [opening, closing]

/-- What a scan adds for a character is what the level changes by. -/
theorem level_concat (t : Text) (c : Char) :
    level (t ++ [c]) = level t + bracketChange t.getLast? c := by
  rw [level_append, level_singleton, Int.add_assoc]
  grind [bracketChange, isOpening, isClosing]

theorem level_concat_comma (t : Text) : level (t ++ [',']) = level t := by
  rw [level_concat]
  exact Int.add_zero (level t)

theorem level_concat_blank (t : Text) {c : Char} (blank : isBlank c = true) :
    level (t ++ [c]) = level t := by
  have other {d : Char} (visible : isBlank d = false) : c ≠ d := by
    rintro rfl
    rw [blank] at visible
    cases visible
  have same : bracketChange t.getLast? c = 0 := by
    unfold bracketChange
    simp [other (d := '<') rfl, other (d := '(') rfl, other (d := '[') rfl, other (d := '{') rfl,
      other (d := '>') rfl, other (d := ')') rfl, other (d := ']') rfl, other (d := '}') rfl]
  rw [level_concat, same, Int.add_zero]

theorem level_append_blank (t : Text) {gap : Text} (blank : isBlankLine gap = true) :
    level (t ++ gap) = level t := by
  induction gap generalizing t with
  | nil => rw [List.append_nil]
  | cons c gap ih =>
      rw [isBlankLine, List.all_cons, Bool.and_eq_true] at blank
      rw [List.append_cons, ih _ blank.2, level_concat_blank t blank.1]

/-- At every comma of a text some bracket is open, given the text before it. -/
def Within (before t : Text) : Prop := ∀ a b, t = a ++ ',' :: b → 0 < level (before ++ a)

namespace Within
variable {before t u : Text} {c : Char}

theorem nil (before : Text) : Within before [] := by
  intro a b split
  simp at split

theorem head (within : Within before (c :: t)) : c = ',' → 0 < level before := by
  rintro rfl
  simpa using within [] t rfl

theorem tail (within : Within before (c :: t)) : Within (before ++ [c]) t := by
  rintro a b rfl
  simpa using within (c :: a) b rfl

theorem append_iff : Within before (t ++ u) ↔ Within before t ∧ Within (before ++ t) u := by
  constructor
  · refine fun within => ⟨?_, ?_⟩
    · rintro a b rfl
      exact within a (b ++ u) (List.append_assoc ..)
    · rintro a b rfl
      rw [List.append_assoc]
      exact within (t ++ a) b (List.append_assoc ..).symm
  · rintro ⟨first, second⟩ a b split
    obtain ⟨more, rfl, rest⟩ | ⟨more, rfl, rest⟩ := List.append_eq_append_iff.1 split
    · rw [← List.append_assoc]
      exact second more b rest
    · cases more with
      | nil =>
          rw [List.append_nil] at second
          simpa using second [] b rest.symm
      | cons d more =>
          cases rest
          exact first a more rfl

theorem singleton (passes : c = ',' → 0 < level before) : Within before [c] := by
  intro a b split
  cases a with
  | nil =>
      cases split
      simpa using passes rfl
  | cons d a => simp at split

theorem of_not_mem (none : ',' ∉ t) : Within before t := by
  rintro a b rfl
  exact absurd (List.mem_append_right a List.mem_cons_self) none

end Within

/-- Where a scan is that has passed a text, with the part so far. -/
def scanned (before part : Text) : ClauseScan := ⟨level before, part.reverse, before.getLast?⟩

theorem splitFrom_comma {before : Text} (separates : level before ≤ 0) (part rest : Text) :
    splitFrom (scanned before part) (',' :: rest) =
      finishPart part.reverse ++ splitFrom (scanned (before ++ [',']) []) rest := by
  have free : (',' = ',' && (scanned before part).depth ≤ 0) = true := decide_eq_true separates
  rw [splitFrom, if_pos free]
  simp [scanned, level_concat_comma]

theorem splitFrom_cons {before : Text} {c : Char} (passes : c = ',' → 0 < level before)
    (part rest : Text) : splitFrom (scanned before part) (c :: rest) =
      splitFrom (scanned (before ++ [c]) (part ++ [c])) rest := by
  have inside : ¬ (c = ',' && (scanned before part).depth ≤ 0) = true := by
    rw [Bool.and_eq_true, decide_eq_true_eq, decide_eq_true_eq, not_and]
    exact fun comma => Int.not_le.2 (passes comma)
  rw [splitFrom, if_neg inside]
  simp [scanned, level_concat]

theorem splitFrom_append {before t : Text} (within : Within before t) (part rest : Text) :
    splitFrom (scanned before part) (t ++ rest) =
      splitFrom (scanned (before ++ t) (part ++ t)) rest := by
  induction t generalizing before part with
  | nil => simp
  | cons c t ih =>
      rw [List.cons_append, splitFrom_cons within.head, ih within.tail, List.append_assoc,
        List.append_assoc, List.singleton_append]

theorem trim_between {gap gap' : Text} (part : Text) (blank : isBlankLine gap = true)
    (blank' : isBlankLine gap' = true) : Text.trim (gap ++ part ++ gap') = Text.trim part := by
  unfold Text.trim
  rw [Text.trimOf_append_of_forall (Text.isBlankLine_iff.1 blank')]
  exact congrArg (Text.trimEndOf isBlank) (Text.trimStart_append blank part)

theorem exists_around (t : Text) : ∃ gap gap', isBlankLine gap = true ∧ isBlankLine gap' = true ∧
    t = gap ++ Text.trim t ++ gap' := by
  refine ⟨t.takeWhile isBlank, ((t.dropWhile isBlank).reverse.takeWhile isBlank).reverse, ?_, ?_, ?_⟩
  · exact Text.isBlankLine_iff.2 fun _ => List.mem_takeWhile_imp
  · exact Text.isBlankLine_iff.2 fun _ member => List.mem_takeWhile_imp (List.mem_reverse.1 member)
  · have rest : Text.trim t ++ _ = t.dropWhile isBlank :=
      Text.trimEndOf_append_dropped isBlank (t.dropWhile isBlank)
    rw [List.append_assoc, rest, List.takeWhile_append_dropWhile]

theorem finishPart_blank {gap : Text} (blank : isBlankLine gap = true) :
    finishPart gap.reverse = [] := by
  rw [finishPart, List.reverse_reverse, Text.trim_eq_nil_iff.2 (Text.isBlankLine_iff.1 blank)]
  rfl

theorem finishPart_part {gap part gap' : Text} (blank : isBlankLine gap = true)
    (blank' : isBlankLine gap' = true) (some : part ≠ []) (trimmed : Text.trim part = part) :
    finishPart (gap ++ part ++ gap').reverse = [part] := by
  rw [finishPart, List.reverse_reverse, trim_between part blank blank', trimmed]
  exact if_neg (mt List.isEmpty_iff.1 some)

theorem Within.of_isBlankLine {gap : Text} (blank : isBlankLine gap = true) (before : Text) :
    Within before gap :=
  .of_not_mem fun member => absurd (Text.isBlankLine_iff.1 blank ',' member) (by decide)

/-- How a text divides into parts, given the text before it. All that is left out is white space around
parts and the commas at which no bracket is open; a part has no such comma. -/
inductive Divides : Text → Text → List Text → Prop where
  | blank {before gap : Text} (blank : isBlankLine gap = true) : Divides before gap []
  | part {before gap part gap' : Text} (blank : isBlankLine gap = true)
      (blank' : isBlankLine gap' = true) (some : part ≠ []) (trimmed : Text.trim part = part)
      (within : Within (before ++ gap) part) : Divides before (gap ++ part ++ gap') [part]
  | comma {before t rest : Text} {parts more : List Text} (first : Divides before t parts)
      (separates : level (before ++ t) ≤ 0) (second : Divides (before ++ t ++ [',']) rest more) :
      Divides before (t ++ ',' :: rest) (parts ++ more)

namespace Divides
variable {before t : Text} {parts : List Text}

/-- A scan of a divided text gives its parts, and those of what comes behind a comma follow them. -/
theorem splitFrom_eq (divides : Divides before t parts) :
    splitFrom (scanned before []) t = parts ∧
      (level (before ++ t) ≤ 0 → ∀ rest, splitFrom (scanned before []) (t ++ ',' :: rest) =
        parts ++ splitFrom (scanned (before ++ t ++ [',']) []) rest) := by
  induction divides with
  | @blank before gap blank =>
      have within := Within.of_isBlankLine blank before
      constructor
      · have whole := splitFrom_append within [] []
        rw [List.append_nil] at whole
        exact whole.trans (finishPart_blank blank)
      · intro separates rest
        rw [splitFrom_append within, splitFrom_comma separates, List.nil_append,
          finishPart_blank blank]
  | @part before gap part gap' blank blank' some trimmed within =>
      have within : Within before (gap ++ part ++ gap') := Within.append_iff.2
        ⟨Within.append_iff.2 ⟨.of_isBlankLine blank before, within⟩, .of_isBlankLine blank' _⟩
      constructor
      · have whole := splitFrom_append within [] []
        rw [List.append_nil] at whole
        exact whole.trans (finishPart_part blank blank' some trimmed)
      · intro separates rest
        rw [splitFrom_append within, splitFrom_comma separates, List.nil_append,
          finishPart_part blank blank' some trimmed]
  | @comma before t rest parts more first separates second ih ih' =>
      refine ⟨by rw [ih.2 separates, ih'.1], fun separates' last => ?_⟩
      have shape : before ++ (t ++ ',' :: rest) = before ++ t ++ [','] ++ rest := by simp
      rw [shape] at separates' ⊢
      rw [List.append_assoc t, List.cons_append, ih.2 separates, ih'.2 separates', ← List.append_assoc]

theorem exists_of_piece {piece : Text} (within : Within before piece) :
    ∃ parts, Divides before piece parts := by
  obtain ⟨gap, gap', blank, blank', around⟩ := exists_around piece
  by_cases nothing : Text.trim piece = []
  · exact ⟨[], .blank (Text.isBlankLine_iff.2 (Text.trim_eq_nil_iff.1 nothing))⟩
  · have trimmed := trim_between (Text.trim piece) blank blank'
    rw [← around] at trimmed
    rw [around] at within ⊢
    have inside := (Within.append_iff.1 (Within.append_iff.1 within).1).2
    exact ⟨_, .part blank blank' nothing trimmed.symm inside⟩

theorem exists_of_within {piece : Text} (within : Within before piece) (t : Text) :
    ∃ parts, Divides before (piece ++ t) parts := by
  induction t generalizing before piece with
  | nil =>
      rw [List.append_nil]
      exact exists_of_piece within
  | cons c t ih =>
      by_cases separates : c = ',' ∧ level (before ++ piece) ≤ 0
      · obtain ⟨rfl, free⟩ := separates
        obtain ⟨parts, first⟩ := exists_of_piece within
        obtain ⟨more, second⟩ := ih (Within.nil (before ++ piece ++ [',']))
        exact ⟨parts ++ more, .comma first free second⟩
      · have passes : Within (before ++ piece) [c] :=
          .singleton fun comma => Int.not_le.1 fun free => separates ⟨comma, free⟩
        have further := ih (Within.append_iff.2 ⟨within, passes⟩)
        rwa [List.append_assoc, List.singleton_append] at further

theorem trimmed (divides : Divides before t parts) :
    ∀ part ∈ parts, part ≠ [] ∧ Text.trim part = part := by
  induction divides with
  | blank => exact List.forall_mem_nil _
  | part blank blank' some trimmed => exact List.forall_mem_singleton.2 ⟨some, trimmed⟩
  | comma first separates second ih ih' => exact List.forall_mem_append.2 ⟨ih, ih'⟩

end Divides

theorem splitTopLevel_eq_iff {t : Text} {parts : List Text} :
    splitTopLevel t = parts ↔ Divides [] t parts := by
  constructor
  · rintro rfl
    obtain ⟨parts, divides⟩ := Divides.exists_of_within (Within.nil []) t
    have same : splitTopLevel t = parts := divides.splitFrom_eq.1
    rwa [same]
  · exact fun divides => divides.splitFrom_eq.1

/-- A part by itself: all its brackets are closed again, none of them before it is opened, and commas
are within brackets. -/
structure Closed (part : Text) : Prop where
  some : part ≠ []
  trimmed : Text.trim part = part
  level : level part = 0
  opened : ∀ a, a <+: part → 0 ≤ Declaration.level a
  commas : ∀ a, a ++ [','] <+: part → 0 < Declaration.level a

/-- A text lists parts: there is a comma between two of them, and any white space around each. -/
inductive Lists : List Text → Text → Prop where
  | none {gap : Text} (blank : isBlankLine gap = true) : Lists [] gap
  | one {gap part gap' : Text} (blank : isBlankLine gap = true) (blank' : isBlankLine gap' = true) :
      Lists [part] (gap ++ part ++ gap')
  | more {gap part gap' next t : Text} {parts : List Text} (blank : isBlankLine gap = true)
      (blank' : isBlankLine gap' = true) (rest : Lists (next :: parts) t) :
      Lists (part :: next :: parts) (gap ++ part ++ gap' ++ ',' :: t)

/-- Behind such a text brackets count as if nothing were before them. -/
structure Fresh (before : Text) : Prop where
  level : level before = 0
  last : before.getLast? ≠ some '='

namespace Fresh
variable {before t gap part gap' : Text}

theorem comma (level : Declaration.level before = 0) : Fresh (before ++ [',']) := by
  refine ⟨(level_concat_comma before).trans level, ?_⟩
  rw [List.getLast?_concat]
  decide

theorem blank (fresh : Fresh before) (blank : isBlankLine gap = true) : Fresh (before ++ gap) := by
  refine ⟨(level_append_blank before blank).trans fresh.level, fun last => ?_⟩
  rw [List.getLast?_append, Option.or_eq_some_iff] at last
  rcases last with last | ⟨-, last⟩
  · have visible := Text.isBlankLine_iff.1 blank '=' (List.mem_of_getLast? last)
    cases visible
  · exact fresh.last last

theorem level_append (fresh : Fresh before) (t : Text) :
    Declaration.level (before ++ t) = Declaration.level t := by
  rw [level_append_of_apart fresh.last, fresh.level, Int.zero_add]

theorem divides (fresh : Fresh before) (closed : Closed part) (blank : isBlankLine gap = true)
    (blank' : isBlankLine gap' = true) : Divides before (gap ++ part ++ gap') [part] ∧
      Declaration.level (before ++ (gap ++ part ++ gap')) = 0 := by
  have behind := fresh.blank blank
  constructor
  · refine .part blank blank' closed.some closed.trimmed fun a b split => ?_
    rw [behind.level_append]
    exact closed.commas a ⟨b, by rw [split, ← List.append_cons]⟩
  · rw [← List.append_assoc, level_append_blank _ blank', ← List.append_assoc, behind.level_append,
      closed.level]

end Fresh

theorem Lists.divides {parts : List Text} {before t : Text} (lists : Lists parts t)
    (closed : ∀ part ∈ parts, Closed part) (fresh : Fresh before) : Divides before t parts := by
  induction lists generalizing before with
  | none blank => exact .blank blank
  | one blank blank' => exact (fresh.divides (closed _ List.mem_cons_self) blank blank').1
  | more blank blank' rest ih =>
      obtain ⟨own, others⟩ := List.forall_mem_cons.1 closed
      obtain ⟨first, level⟩ := fresh.divides own blank blank'
      exact .comma first (Int.le_of_eq level) (ih others (.comma level))

/-- A text that lists closed parts is split into just these parts. Whatever text is split, the parts are
those into which it divides: none is empty or has white space around it, and nothing but white space
around parts and commas outside of brackets is left out. -/
theorem splitTopLevel_divides :
    (∀ (parts : List Text) (t : Text), (∀ part ∈ parts, Closed part) → Lists parts t →
      splitTopLevel t = parts) ∧
    ∀ t : Text, (∀ part ∈ splitTopLevel t, part ≠ [] ∧ Text.trim part = part) ∧
      ∀ parts, splitTopLevel t = parts ↔ Divides [] t parts := by
  refine ⟨fun parts t closed lists => ?_, fun t => ⟨?_, fun parts => splitTopLevel_eq_iff⟩⟩
  · exact splitTopLevel_eq_iff.2 (lists.divides closed ⟨rfl, nofun⟩)
  · exact (splitTopLevel_eq_iff.1 rfl).trimmed

/-- A part with commas in brackets of three forms and with the head of an arrow. -/
def functionPart : Text := "Fn<(a: X, b?: [Y, Z]) => W>".toList

theorem closed_functionPart : Closed functionPart := by
  refine ⟨by decide, by decide +kernel, by decide +kernel, fun a beginning => ?_, fun a comma => ?_⟩
  · have every : ∀ a ∈ functionPart.inits, 0 ≤ level a := by decide +kernel
    exact every a ((List.mem_inits a functionPart).2 beginning)
  · have every : ∀ b ∈ functionPart.inits, b.getLast? = some ',' → 0 < level b.dropLast := by
      decide +kernel
    have inside := every (a ++ [',']) ((List.mem_inits _ functionPart).2 comma)
    rw [List.getLast?_concat, List.dropLast_concat] at inside
    exact inside rfl

/-- A list of two such parts on two lines is split between them only. -/
theorem splitTopLevel_functionParts :
    splitTopLevel (' ' :: functionPart ++ " \n, ".toList ++ functionPart) =
      [functionPart, functionPart] := by
  refine splitTopLevel_divides.1 _ _ (List.forall_mem_cons.2 ⟨closed_functionPart,
    List.forall_mem_singleton.2 closed_functionPart⟩) ?_
  exact @Lists.more [' '] _ [' ', '\n'] _ _ _ rfl rfl (@Lists.one [' '] _ [] rfl rfl)

end ApiReference.Declaration
