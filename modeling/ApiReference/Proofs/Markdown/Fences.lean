import ApiReference.Proofs.Markdown.Grammar
import ApiReference.Rendering.Page

/-!
# Where lines stand with respect to fences

The rules of CommonMark for fenced code tell of each line of a text whether it opens or closes a
block, or is inside or outside of one. A writer that puts pieces of prose and of code one after the
other means each line to be one of these. Its lines are read as they are meant if and only if no line
of prose opens a block and no line of code closes one. Main statement: `places_rows_iff`.
-/

namespace ApiReference.Markdown
open ApiReference.Rendering (Page.fence)

/-- The lines of a text. Each may end with a line feed, a carriage return or both. -/
def rows : Text → List Text
  | [] => []
  | '\r' :: '\n' :: t => [] :: rows t
  | c :: t =>
    if c = '\n' ∨ c = '\r' then [] :: rows t
    else match rows t with
      | [] => [[c]]
      | row :: more => (c :: row) :: more

/-- Whether a text is nothing or ends a line. -/
def Ended (t : Text) : Prop := ∀ c ∈ t.getLast?, c = '\n'

section
variable {t u : Text}

theorem ended_nil : Ended [] := nofun

theorem ended_concat (t : Text) : Ended (t ++ ['\n']) := fun c last => by
  rw [List.getLast?_concat] at last
  exact (Option.some.inj last).symm

theorem Ended.append (first : Ended t) (second : Ended u) : Ended (t ++ u) := by
  cases u with
  | nil => rwa [List.append_nil]
  | cons c u =>
      intro d last
      rw [List.getLast?_append_of_ne_nil _ (List.cons_ne_nil c u)] at last
      exact second d last

theorem rows_eq_nil_iff : rows t = [] ↔ t = [] := by
  refine ⟨fun none => ?_, fun nothing => nothing ▸ rfl⟩
  unfold rows at none
  split at none
  · rfl
  · cases none
  · split at none
    · cases none
    · split at none <;> cases none

theorem rows_cons {c : Char} (other : ¬ (c = '\n' ∨ c = '\r')) :
    rows (c :: t) = match rows t with
      | [] => [[c]]
      | row :: more => (c :: row) :: more := by
  rw [rows]
  · rw [if_neg other]
  · rintro t rfl
    exact absurd (.inr rfl) other

theorem rows_lineEnd {c : Char} (lineEnd : c = '\n' ∨ c = '\r')
    (single : c = '\r' → t.head? ≠ some '\n') : rows (c :: t) = [] :: rows t := by
  rw [rows]
  · rw [if_pos lineEnd]
  · rintro t rfl rfl
    exact single rfl rfl

theorem Ended.tail {c : Char} (ended : Ended (c :: t)) : Ended t := by
  cases t with
  | nil => exact ended_nil
  | cons d t =>
      intro e last
      exact ended e (by rwa [List.getLast?_cons_cons])

theorem Ended.eq_of_singleton {c : Char} (ended : Ended [c]) : c = '\n' := ended c rfl

/-- What comes after the end of a line does not change the lines before. -/
theorem rows_append (ended : Ended t) (u : Text) : rows (t ++ u) = rows t ++ rows u := by
  induction t using rows.induct with
  | case1 => rfl
  | case2 t ih => exact congrArg ([] :: ·) (ih ended.tail.tail)
  | case3 c t double lineEnd ih =>
      have single : c = '\r' → (t ++ u).head? ≠ some '\n' := by
        rintro rfl
        cases t with
        | nil => exact absurd ended.eq_of_singleton (by decide)
        | cons d t =>
            intro first
            exact double t rfl (congrArg (· :: t) (Option.some.inj first))
      have alone : c = '\r' → t.head? ≠ some '\n' := by
        rintro rfl first
        obtain ⟨t, rfl⟩ := List.head?_eq_some_iff.1 first
        exact double t rfl rfl
      rw [List.cons_append, rows_lineEnd lineEnd single, rows_lineEnd lineEnd alone,
        ih ended.tail, List.cons_append]
  | case4 c t double inner nothing ih =>
      rw [rows_eq_nil_iff] at nothing
      subst nothing
      exact absurd (.inl ended.eq_of_singleton) inner
  | case5 c t double inner row more found ih =>
      rw [List.cons_append, rows_cons inner, rows_cons inner, ih ended.tail, found]
      rfl

end

/-- Where a line stands. -/
inductive LinePlace where
  | outside
  | opening
  | inside
  | closing
  deriving DecidableEq, Repr

/-- A block that is open: what it was opened with, and how often that was repeated. -/
structure OpenBlock where
  mark : Char
  count : Nat
  deriving DecidableEq

def OpenBlock.of (line : Text) : OpenBlock :=
  let mark := if 3 ≤ run '~' (unindented line) then '~' else backtick
  ⟨mark, run mark (unindented line)⟩

/-- Where a line stands, and which block is open after it, given the one that is open before. -/
def placeOf : Option OpenBlock → Text → LinePlace × Option OpenBlock
  | none, line =>
    if opensFence line then (.opening, some (.of line)) else (.outside, none)
  | some block, line =>
    if closesFence block.mark block.count line then (.closing, none) else (.inside, some block)

/-- Where lines stand after a block is open, or none is. -/
def places : Option OpenBlock → List Text → List LinePlace
  | _, [] => []
  | block?, line :: lines => (placeOf block? line).1 :: places (placeOf block? line).2 lines

def openAfter : Option OpenBlock → List Text → Option OpenBlock
  | block?, [] => block?
  | block?, line :: lines => openAfter (placeOf block? line).2 lines

section
variable {lines more : List Text} {block? : Option OpenBlock} {block : OpenBlock}

theorem length_places : (places block? lines).length = lines.length := by
  induction lines generalizing block? with
  | nil => rfl
  | cons line lines ih => rw [places, List.length_cons, ih, List.length_cons]

theorem places_append :
    places block? (lines ++ more) = places block? lines ++ places (openAfter block? lines) more := by
  induction lines generalizing block? with
  | nil => rfl
  | cons line lines ih => rw [List.cons_append, places, ih, places, List.cons_append, openAfter]

/-- Prose is outside of blocks if none of its lines opens one. -/
theorem places_prose_iff : places none lines = List.replicate lines.length .outside ↔
    ∀ line ∈ lines, opensFence line = false := by
  induction lines with
  | nil => simp [places]
  | cons line lines ih =>
      rw [List.forall_mem_cons, ← ih, places, List.length_cons, List.replicate_succ,
        List.cons.injEq]
      cases opens : opensFence line <;> simp [placeOf, opens]

theorem openAfter_prose (plain : ∀ line ∈ lines, opensFence line = false) :
    openAfter none lines = none := by
  induction lines with
  | nil => rfl
  | cons line lines ih =>
      obtain ⟨first, rest⟩ := List.forall_mem_cons.1 plain
      rw [openAfter, placeOf, first]
      exact ih rest

/-- A block goes on to the line that is meant to close it if that does, and none before. -/
theorem places_body_iff {fence : Text} : places (some block) (lines ++ [fence]) =
      List.replicate lines.length .inside ++ [.closing] ↔
    (∀ line ∈ lines, closesFence block.mark block.count line = false) ∧
      closesFence block.mark block.count fence = true := by
  induction lines with
  | nil => cases closes : closesFence block.mark block.count fence <;>
      simp [places, placeOf, closes]
  | cons line lines ih =>
      rw [List.forall_mem_cons, and_assoc, ← ih, List.cons_append, places, List.length_cons,
        List.replicate_succ, List.cons_append, List.cons.injEq]
      cases closes : closesFence block.mark block.count line <;> simp [placeOf, closes]

theorem openAfter_body {fence : Text}
    (plain : ∀ line ∈ lines, closesFence block.mark block.count line = false)
    (closes : closesFence block.mark block.count fence = true) :
    openAfter (some block) (lines ++ [fence]) = none := by
  induction lines with
  | nil => simp [openAfter, placeOf, closes]
  | cons line lines ih =>
      obtain ⟨first, rest⟩ := List.forall_mem_cons.1 plain
      rw [List.cons_append, openAfter, placeOf, first]
      exact ih rest

end

section
variable {info : Text}

theorem run_append_replicate (c : Char) (n : Nat) (t : Text) :
    run c (List.replicate n c ++ t) = n + run c t := by
  rw [run, List.takeWhile_append_of_pos fun d member => beq_iff_eq.2 (List.eq_of_mem_replicate member),
    List.length_append, List.length_replicate, run]

theorem unindented_fence (t : Text) : unindented (Page.fence ++ t) = Page.fence ++ t := rfl

theorem opensFence_fence :
    opensFence (Page.fence ++ info) = (info.drop (run backtick info)).all (· != backtick) := by
  have count : run backtick (Page.fence ++ info) = 3 + run backtick info :=
    run_append_replicate backtick 3 info
  have none : run '~' (Page.fence ++ info) = 0 := rfl
  have rest : (Page.fence ++ info).drop (3 + run backtick info) = info.drop (run backtick info) := by
    rw [← List.drop_drop]
    rfl
  simp only [opensFence, unindented_fence, count, none, rest]
  simp

theorem of_fence : OpenBlock.of (Page.fence ++ info) = ⟨backtick, 3 + run backtick info⟩ := by
  have count : run backtick (Page.fence ++ info) = 3 + run backtick info :=
    run_append_replicate backtick 3 info
  have none : run '~' (Page.fence ++ info) = 0 := rfl
  have few : ¬ 3 ≤ 0 := by decide
  simp only [OpenBlock.of, unindented_fence, none, if_neg few, count]

theorem run_eq_zero_of_not_mem {c : Char} {t : Text} (other : c ∉ t) : run c t = 0 := by
  cases t with
  | nil => rfl
  | cons d t =>
      have differs : (d == c) = false := beq_false_of_ne fun same => other (same ▸ List.mem_cons_self)
      rw [run, List.takeWhile_cons, differs]
      rfl

theorem closesFence_fence_iff {n : Nat} : closesFence backtick n Page.fence = true ↔ n ≤ 3 := by
  have count : run backtick (unindented Page.fence) = 3 := rfl
  simp only [closesFence, count]
  exact (Bool.and_eq_true_iff.trans (and_iff_left rfl)).trans decide_eq_true_iff

/-- What is written between fences of three backticks is read so if there is no backtick behind the
first fence and no line closes the block before the last one does. -/
theorem places_code_iff {lines : List Text} :
    places none ((Page.fence ++ info) :: (lines ++ [Page.fence])) =
      .opening :: (List.replicate lines.length .inside ++ [.closing]) ↔
    backtick ∉ info ∧ ∀ line ∈ lines, closesFence backtick 3 line = false := by
  have opens_iff : opensFence (Page.fence ++ info) = true ∧ run backtick info = 0 ↔
      backtick ∉ info := by
    rw [opensFence_fence]
    constructor
    · rintro ⟨opens, zero⟩ member
      rw [zero, List.drop_zero, List.all_eq_true] at opens
      simpa using opens backtick member
    · intro absent
      rw [run_eq_zero_of_not_mem absent, List.drop_zero, List.all_eq_true]
      exact ⟨fun c member => bne_iff_ne.2 fun same => absent (same ▸ member), rfl⟩
  rw [places, List.cons.injEq, ← opens_iff]
  cases opens : opensFence (Page.fence ++ info) with
  | false => simp [placeOf, opens]
  | true =>
      simp only [placeOf, opens, if_true, of_fence, places_body_iff, closesFence_fence_iff, true_and]
      constructor
      · rintro ⟨plain, few⟩
        have zero : run backtick info = 0 := by omega
        rw [zero] at plain
        exact ⟨zero, plain⟩
      · rintro ⟨zero, plain⟩
        rw [zero]
        exact ⟨plain, Nat.le_refl 3⟩

theorem openAfter_code {lines : List Text} (absent : backtick ∉ info)
    (plain : ∀ line ∈ lines, closesFence backtick 3 line = false) :
    openAfter none ((Page.fence ++ info) :: (lines ++ [Page.fence])) = none := by
  have read := places_code_iff.2 ⟨absent, plain⟩
  rw [places, List.cons.injEq] at read
  cases opens : opensFence (Page.fence ++ info) with
  | false => simp [placeOf, opens] at read
  | true =>
      rw [openAfter, placeOf, opens, if_pos rfl, of_fence, run_eq_zero_of_not_mem absent]
      exact openAfter_body plain (closesFence_fence_iff.2 (Nat.le_refl 3))

end

/-- Part of a text as its writer means it: prose, or code between fences of three backticks with
something behind the first of them. -/
inductive Piece where
  | prose (t : Text)
  | code (info body : Text)
  deriving DecidableEq, Repr

namespace Piece

def text : Piece → Text
  | prose t => t
  | code info body => Page.fence ++ info ++ '\n' :: body ++ Page.fence ++ ['\n']

/-- The lines of code with what is behind the first fence before them. -/
def codeRows (info body : Text) : List Text := rows (info ++ '\n' :: body)

def meant : Piece → List LinePlace
  | prose t => List.replicate (rows t).length .outside
  | code info body =>
    .opening :: (List.replicate (codeRows info body).tail.length .inside ++ [.closing])

/-- Whether a piece ends its last line, and code does so before its last fence. -/
def IsWhole : Piece → Prop
  | prose t => Ended t
  | code _ body => Ended body

/-- Whether no line of a piece is taken for a fence that it is not. -/
def IsPlain : Piece → Prop
  | prose t => ∀ line ∈ rows t, opensFence line = false
  | code info body => (∀ line ∈ (codeRows info body).head?, backtick ∉ line) ∧
      ∀ line ∈ (codeRows info body).tail, closesFence backtick 3 line = false

instance decidableIsPlain : (p : Piece) → Decidable p.IsPlain
  | prose t => inferInstanceAs (Decidable (∀ line ∈ rows t, opensFence line = false))
  | code info body => inferInstanceAs (Decidable
      ((∀ line ∈ (codeRows info body).head?, backtick ∉ line) ∧
        ∀ line ∈ (codeRows info body).tail, closesFence backtick 3 line = false))

section
variable {p : Piece}

theorem rows_fence_append (t : Text) (some : t ≠ []) :
    ∃ row more, rows t = row :: more ∧ rows (Page.fence ++ t) = (Page.fence ++ row) :: more := by
  obtain ⟨row, more, found⟩ := List.exists_cons_of_ne_nil (mt rows_eq_nil_iff.1 some)
  have mark : ¬ (backtick = '\n' ∨ backtick = '\r') := by decide
  refine ⟨row, more, found, ?_⟩
  change rows (backtick :: backtick :: backtick :: t) = _
  rw [rows_cons mark, rows_cons mark, rows_cons mark, found]
  rfl

theorem text_prose (t : Text) : (prose t).text = t := rfl

theorem text_code (info body : Text) : (code info body).text =
    Page.fence ++ (info ++ '\n' :: body) ++ (Page.fence ++ ['\n']) := by
  simp only [text, List.append_assoc, List.cons_append]

theorem ended_text (whole : p.IsWhole) : Ended p.text := by
  cases p with
  | prose t => exact whole
  | code info body => exact ended_concat _

/-- The lines of code between its fences. -/
theorem rows_code (info : Text) {body : Text} (whole : Ended body) : ∃ first inner,
    codeRows info body = first :: inner ∧
      rows (code info body).text = (Page.fence ++ first) :: (inner ++ [Page.fence]) := by
  have ended : Ended (Page.fence ++ (info ++ '\n' :: body)) := by
    rw [← List.append_assoc, ← List.singleton_append, ← List.append_assoc]
    exact (ended_concat _).append whole
  have some : info ++ '\n' :: body ≠ [] :=
    List.append_ne_nil_of_right_ne_nil info (List.cons_ne_nil '\n' body)
  obtain ⟨first, inner, found, fenced⟩ := rows_fence_append _ some
  refine ⟨first, inner, found, ?_⟩
  rw [text_code, rows_append ended, fenced]
  rfl

theorem length_meant (whole : p.IsWhole) : p.meant.length = (rows p.text).length := by
  cases p with
  | prose t => exact List.length_replicate
  | code info body =>
      obtain ⟨first, inner, found, lines⟩ := rows_code info whole
      rw [lines, meant, found]
      simp

theorem places_rows_piece_iff (whole : p.IsWhole) :
    places none (rows p.text) = p.meant ↔ p.IsPlain := by
  cases p with
  | prose t => exact places_prose_iff
  | code info body =>
      obtain ⟨first, inner, found, lines⟩ := rows_code info whole
      simp only [meant, IsPlain, found, lines, List.tail_cons, List.head?_cons, Option.mem_def,
        Option.some.injEq, forall_eq']
      exact places_code_iff

theorem openAfter_piece (whole : p.IsWhole) (plain : p.IsPlain) :
    openAfter none (rows p.text) = none := by
  cases p with
  | prose t => exact openAfter_prose plain
  | code info body =>
      obtain ⟨first, inner, found, lines⟩ := rows_code info whole
      simp only [IsPlain, found, List.tail_cons, List.head?_cons, Option.mem_def,
        Option.some.injEq, forall_eq'] at plain
      rw [lines]
      exact openAfter_code plain.1 plain.2

end

/-- Pieces one after the other are read as they are meant if and only if each of them is plain. -/
theorem places_rows_iff {ps : List Piece} (whole : ∀ p ∈ ps, p.IsWhole) :
    places none (rows (ps.flatMap Piece.text)) = ps.flatMap Piece.meant ↔ ∀ p ∈ ps, p.IsPlain := by
  induction ps with
  | nil => simp [rows, places]
  | cons p ps ih =>
      obtain ⟨first, rest⟩ := List.forall_mem_cons.1 whole
      have lengths : (places none (rows p.text)).length = p.meant.length := by
        rw [length_places, length_meant first]
      rw [List.flatMap_cons, List.flatMap_cons, rows_append (ended_text first), places_append,
        List.forall_mem_cons, ← ih rest, ← places_rows_piece_iff first]
      constructor
      · intro read
        obtain ⟨here, behind⟩ := List.append_inj read lengths
        rw [openAfter_piece first ((places_rows_piece_iff first).1 here)] at behind
        exact ⟨here, behind⟩
      · rintro ⟨here, behind⟩
        rw [openAfter_piece first ((places_rows_piece_iff first).1 here), here, behind]

end Piece
end ApiReference.Markdown
