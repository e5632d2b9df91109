import ApiReference.Declaration.Documentation
import ApiReference.Proofs.Text.Stripping
import ApiReference.Proofs.Text.Trimming

/-!
# Texts of tags

The lines of a tag are read as one line. A type in braces in front of it counts for nothing, and a
parameter tag names the parameter before the first blank. Main statements: `inline_iff`,
`stripTypeBraces_iff`, `parseParam_iff`.
-/

namespace ApiReference.Declaration.Documentation
open ApiReference.Text (isBlank trim trimEnd trimStart trimStartOf Strips strips_iff)

/-- Lines as one: those that are not blank, without the blanks at their ends and with a space between
two of them. -/
inductive OnOneLine : List Text → Text → Prop
  | nil : OnOneLine [] []
  | blank {line t : Text} {lines : List Text} (empty : Strips line []) (rest : OnOneLine lines t) :
      OnOneLine (line :: lines) t
  | last {line core : Text} {lines : List Text} (strips : Strips line core) (filled : core ≠ [])
      (rest : OnOneLine lines []) : OnOneLine (line :: lines) core
  | more {line core t : Text} {lines : List Text} (strips : Strips line core) (filled : core ≠ [])
      (rest : OnOneLine lines t) (goesOn : t ≠ []) : OnOneLine (line :: lines) (core ++ ' ' :: t)

section
variable {tag line core t : Text} {lines : List Text}

theorem inline_blank (empty : Strips line []) :
    TagBlock.inline ⟨tag, line :: lines⟩ = TagBlock.inline ⟨tag, lines⟩ := by
  rw [TagBlock.inline, List.map_cons, strips_iff.1 empty]
  rfl

theorem join_cons {us : List Text} (each : ∀ u ∈ us, u ≠ []) (t : Text) : Text.join [' '] (t :: us) =
    if Text.join [' '] us = [] then t else t ++ ' ' :: Text.join [' '] us := by
  cases us with
  | nil => rfl
  | cons u us =>
      have first : u ≠ [] := each u List.mem_cons_self
      have some : Text.join [' '] (u :: us) ≠ [] := by
        cases us with
        | nil => exact first
        | cons v vs =>
            have parts : Text.join [' '] (u :: v :: vs) = u ++ [' '] ++ Text.join [' '] (v :: vs) := rfl
            rw [parts, List.append_assoc]
            exact List.append_ne_nil_of_left_ne_nil first _
      rw [if_neg some]
      exact List.append_assoc t [' '] (Text.join [' '] (u :: us))

theorem inline_filled (strips : Strips line core) (filled : core ≠ []) :
    TagBlock.inline ⟨tag, line :: lines⟩ =
      if TagBlock.inline ⟨tag, lines⟩ = [] then core
      else core ++ ' ' :: TagBlock.inline ⟨tag, lines⟩ := by
  have kept : (!core.isEmpty) = true := by
    rw [Bool.not_eq_true', List.isEmpty_eq_false_iff]
    exact filled
  have each : ∀ u ∈ (lines.map trim).filter fun l => !l.isEmpty, u ≠ [] := by
    intro u member
    have some := (List.mem_filter.1 member).2
    rwa [Bool.not_eq_true', List.isEmpty_eq_false_iff] at some
  have split : (core :: lines.map trim).filter (fun l => !l.isEmpty) =
      core :: (lines.map trim).filter fun l => !l.isEmpty := List.filter_cons_of_pos kept
  simp only [TagBlock.inline, List.map_cons, strips_iff.1 strips, split]
  exact join_cons each core

theorem inline_iff : TagBlock.inline ⟨tag, lines⟩ = t ↔ OnOneLine lines t := by
  constructor
  · rintro rfl
    induction lines with
    | nil => exact .nil
    | cons line lines ih =>
        have strips := Text.strips_trim line
        by_cases empty : trim line = []
        · rw [empty] at strips
          rw [inline_blank strips]
          exact .blank strips ih
        · rw [inline_filled strips empty]
          split
          · next none =>
              rw [none] at ih
              exact .last strips empty ih
          · next some => exact .more strips empty ih some
  · intro onOneLine
    induction onOneLine with
    | nil => rfl
    | blank empty _ ih => rw [inline_blank empty, ih]
    | last strips filled _ ih => rw [inline_filled strips filled, if_pos ih]
    | more strips filled _ goesOn ih => rw [inline_filled strips filled, ih, if_neg goesOn]

end

/-- Texts in which braces are closed in the order in which they are opened. -/
inductive Balanced : Text → Prop where
  | nil : Balanced []
  | cons {c : Char} {t : Text} (opens : c ≠ '{') (closes : c ≠ '}') (rest : Balanced t) :
      Balanced (c :: t)
  | braces {inner t : Text} (inside : Balanced inner) (rest : Balanced t) :
      Balanced ('{' :: (inner ++ '}' :: t))

theorem balanced_of_forall {t : Text} (none : ∀ c ∈ t, c ≠ '{' ∧ c ≠ '}') : Balanced t := by
  induction t with
  | nil => exact .nil
  | cons c t ih =>
      obtain ⟨⟨opens, closes⟩, rest⟩ := List.forall_mem_cons.1 none
      exact .cons opens closes (ih rest)

/-- With a brace open, a balanced text is passed over. -/
theorem Balanced.afterBraces {t : Text} (balanced : Balanced t) (depth : Nat) (rest : Text) :
    afterBraces (depth + 1) (t ++ rest) = afterBraces (depth + 1) rest := by
  induction balanced generalizing depth rest with
  | nil => rfl
  | cons opens closes _ ih =>
      rw [List.cons_append, Documentation.afterBraces, if_neg opens, if_neg closes, ih]
  | @braces inner t _ _ inside ih =>
      have inner : ¬ depth + 1 + 1 ≤ 1 := by omega
      rw [List.cons_append, List.append_assoc, List.cons_append, Documentation.afterBraces,
        if_pos rfl, inside, Documentation.afterBraces, if_neg (by decide), if_pos rfl,
        if_neg inner, Nat.add_sub_cancel, ih]

theorem stripTypeBraces_of_head? {body : Text} (plain : (trim body).head? ≠ some '{') :
    stripTypeBraces body = trim body := by
  rw [stripTypeBraces]
  split
  · next start =>
      rw [start] at plain
      exact absurd rfl plain
  · rfl

theorem stripTypeBraces_type {type : Text} (balanced : Balanced type) (more : Text) :
    stripTypeBraces ('{' :: (type ++ '}' :: more)) = trim more := by
  have trimmed : trim ('{' :: (type ++ '}' :: more)) = '{' :: (type ++ '}' :: trimEnd more) := by
    have start := Text.trimOf_append_cons (p := isBlank) (c := '{') (by decide) []
      (type ++ '}' :: more)
    rw [Text.trimEndOf_append_cons (by decide)] at start
    exact start
  have closed : afterBraces 0 ('{' :: (type ++ '}' :: trimEnd more)) = some (trimEnd more) := by
    rw [afterBraces, if_pos rfl, balanced.afterBraces, afterBraces, if_neg (by decide), if_pos rfl]
    rfl
  rw [stripTypeBraces, trimmed]
  simp only [closed]
  exact Text.trimOf_trimEndOf isBlank more

theorem exists_of_afterBraces {t rest : Text} {depth : Nat}
    (found : afterBraces (depth + 1) t = some rest) : ∃ type more, t = type ++ '}' :: more ∧
      Balanced type ∧ (if depth = 0 then some more else afterBraces depth more) = some rest := by
  induction length : t.length using Nat.strongRecOn generalizing t depth with
  | ind n ih =>
      cases t with
      | nil => cases found
      | cons c t =>
          rw [List.length_cons] at length
          rw [afterBraces] at found
          split at found
          · next opens =>
              -- The braces opened here are closed first, and then those open before.
              obtain ⟨inner, more, rfl, inside, found⟩ := ih t.length (by omega) found rfl
              rw [if_neg (Nat.succ_ne_zero depth)] at found
              rw [List.length_append, List.length_cons] at length
              obtain ⟨type, more, rfl, balanced, found⟩ := ih more.length (by omega) found rfl
              refine ⟨'{' :: (inner ++ '}' :: type), more, ?_, .braces inside balanced, found⟩
              rw [opens, List.cons_append, List.append_assoc, List.cons_append]
          · next opens =>
              split at found
              · next closes =>
                  refine ⟨[], t, by rw [closes, List.nil_append], .nil, ?_⟩
                  cases depth with
                  | zero => exact found
                  | succ depth => exact found
              · next closes =>
                  obtain ⟨type, more, rfl, balanced, found⟩ := ih t.length (by omega) found rfl
                  exact ⟨c :: type, more, rfl, .cons opens closes balanced, found⟩

/-- Whether a text says what another one says behind a type in braces, if it begins with one. -/
inductive Untyped : Text → Text → Prop
  | type {t type rest u : Text} (strips : Strips t ('{' :: (type ++ '}' :: rest)))
      (balanced : Balanced type) (behind : Strips rest u) : Untyped t u
  | plain {t u : Text} (strips : Strips t u)
      (none : ∀ type rest, u = '{' :: (type ++ '}' :: rest) → ¬ Balanced type) : Untyped t u

theorem trim_trim (t : Text) : trim (trim t) = trim t := by
  have stripped := Text.strips_trim t
  exact Strips.eq ⟨⟨[], [], (List.append_nil _).symm, nofun, nofun⟩, stripped.first, stripped.last⟩

theorem stripTypeBraces_trim (t : Text) : stripTypeBraces (trim t) = stripTypeBraces t := by
  rw [stripTypeBraces, stripTypeBraces, trim_trim]

theorem stripTypeBraces_iff {t u : Text} : stripTypeBraces t = u ↔ Untyped t u := by
  constructor
  · rintro rfl
    have strips := Text.strips_trim t
    cases start : trim t with
    | nil =>
        rw [stripTypeBraces_of_head? (by rw [start]; exact nofun), start]
        exact .plain (start ▸ strips) nofun
    | cons c body =>
        by_cases opens : c = '{'
        · subst opens
          have opened : afterBraces 0 ('{' :: body) = afterBraces 1 body := by
            rw [afterBraces, if_pos rfl]
          cases found : afterBraces 1 body with
          | some rest =>
              obtain ⟨type, more, rfl, balanced, same⟩ := exists_of_afterBraces found
              rw [start] at strips
              have text := stripTypeBraces_type balanced more
              rw [← start, stripTypeBraces_trim] at text
              exact .type strips balanced (text ▸ Text.strips_trim more)
          | none =>
              have whole : stripTypeBraces t = trim t := by
                rw [stripTypeBraces, start]
                simp only [opened, found]
              rw [whole]
              refine .plain strips fun type rest split balanced => ?_
              obtain ⟨-, rfl⟩ := List.cons.inj (start.symm.trans split)
              rw [balanced.afterBraces 0, afterBraces, if_neg (by decide), if_pos rfl] at found
              cases found
        · have plain : (trim t).head? ≠ some '{' := by
            rw [start]
            exact fun same => opens (Option.some.inj same)
          rw [stripTypeBraces_of_head? plain]
          refine .plain strips fun type rest split => absurd ?_ plain
          rw [split]
          rfl
  · intro untyped
    cases untyped with
    | type strips balanced behind =>
        rw [← stripTypeBraces_trim, strips.eq, stripTypeBraces_type balanced, behind.eq]
    | plain strips none =>
        rw [stripTypeBraces, strips.eq]
        split
        · next body =>
            split
            · next rest found =>
                rw [afterBraces, if_pos rfl] at found
                obtain ⟨type, more, rfl, balanced, -⟩ := exists_of_afterBraces found
                exact absurd balanced (none type more rfl)
            · rfl
        · rfl

theorem splitOnce_getD (p : Char → Bool) (t : Text) :
    (Text.splitOnce p t).getD (t, []) =
      (t.takeWhile (fun c => !p c), (t.dropWhile fun c => !p c).tail) := by
  induction t with
  | nil => rfl
  | cons c t ih =>
      rw [Text.splitOnce]
      split
      · next separates => simp [separates]
      · next other =>
          rw [List.takeWhile_cons_of_pos (by simpa using other),
            List.dropWhile_cons_of_pos (by simpa using other)]
          cases split : Text.splitOnce p t with
          | none =>
              rw [split, Option.getD_none, Prod.mk.injEq] at ih
              rw [Option.map_none, Option.getD_none, ← ih.1, ← ih.2]
          | some parts =>
              rw [split, Option.getD_some] at ih
              rw [Option.map_some, Option.getD_some, ih]

/-- A name as a tag writes it, without brackets, dots and default value. -/
def bareName (raw : Text) : Text :=
  Text.stripStartAll "...".toList
    ((trimStartOf (· == '[') raw).takeWhile fun c => c != '=' && c != ']')

/-- A text without the hyphens that stand before it. -/
def remark (t : Text) : Text := trim (trimStartOf (· == '-') (trim t))

/-- Whether a word of a tag names a parameter: between brackets and dots before it and an equals sign
or a bracket behind it. -/
def WritesName (word name : Text) : Prop := ∃ brackets dots close,
  word = brackets ++ (dots ++ (name ++ close)) ∧ (∀ c ∈ brackets, c = '[') ∧
  (dots ++ (name ++ close)).head? ≠ some '[' ∧ (∃ n, dots = (List.replicate n "...".toList).flatten) ∧
  ¬ "...".toList <+: name ∧ (∀ c ∈ name, c ≠ '=' ∧ c ≠ ']') ∧
  ∀ c ∈ close.head?, c = '=' ∨ c = ']'

/-- Whether a text is what another one says, without the hyphens before it. -/
def Remarks (t text : Text) : Prop := ∃ hyphens rest, Strips t (hyphens ++ rest) ∧
  (∀ c ∈ hyphens, c = '-') ∧ rest.head? ≠ some '-' ∧ Strips rest text

section
variable {t word name text : Text}

theorem eq_dot_of_mem (n : Nat) : ∀ c ∈ (List.replicate n "...".toList).flatten, c = '.' := by
  intro c member
  obtain ⟨dots, copy, inside⟩ := List.mem_flatten.1 member
  have dot : ∀ c ∈ "...".toList, c = '.' := by decide
  exact dot c ((List.mem_replicate.1 copy).2 ▸ inside)

theorem bareName_iff : bareName word = name ↔ WritesName word name := by
  have dotted : ("...".toList : Text) ≠ [] := by decide
  constructor
  · intro bare
    obtain ⟨⟨n, split⟩, ended⟩ := (Text.stripStartAll_iff dotted).1 bare
    have front := List.takeWhile_append_dropWhile (p := (· == '[')) (l := word)
    have back := List.takeWhile_append_dropWhile (p := fun c => c != '=' && c != ']')
      (l := trimStartOf (· == '[') word)
    have goesOn : ∀ c ∈ (List.replicate n "...".toList).flatten ++ name, c ≠ '=' ∧ c ≠ ']' := by
      intro c member
      have kept := List.mem_takeWhile_imp (split ▸ member)
      rwa [Bool.and_eq_true, bne_iff_ne, bne_iff_ne] at kept
    rw [split, List.append_assoc] at back
    refine ⟨_, _, _, front.symm.trans (congrArg (_ ++ ·) back.symm), fun c bracket => ?_, ?_, ⟨n, rfl⟩,
      ended, fun c member => goesOn c (List.mem_append_right _ member), fun c first => ?_⟩
    · exact beq_iff_eq.1 (List.mem_takeWhile_imp (p := (· == '[')) bracket)
    · rw [back]
      intro first
      have other := Text.head?_dropWhile (· == '[') word '[' first
      cases other
    · have stop := Text.head?_dropWhile (fun c => c != '=' && c != ']') _ c first
      rwa [Bool.and_eq_false_iff, bne_eq_false_iff_eq, bne_eq_false_iff_eq] at stop
  · rintro ⟨brackets, dots, close, rfl, opening, started, ⟨n, rfl⟩, ended, plain, closing⟩
    have opened : trimStartOf (· == '[') (brackets ++ ((List.replicate n "...".toList).flatten ++
        (name ++ close))) = (List.replicate n "...".toList).flatten ++ (name ++ close) := by
      refine Text.dropWhile_run (fun c member => beq_iff_eq.2 (opening c member)) fun c first => ?_
      rw [beq_eq_false_iff_ne]
      rintro rfl
      exact started first
    have goesOn : ∀ c ∈ (List.replicate n "...".toList).flatten ++ name,
        (c != '=' && c != ']') = true := by
      intro c member
      rw [Bool.and_eq_true, bne_iff_ne, bne_iff_ne]
      rcases List.mem_append.1 member with dot | named
      · rw [eq_dot_of_mem n c dot]
        decide
      · exact plain c named
    have stops : ∀ c ∈ close.head?, (c != '=' && c != ']') = false := by
      intro c first
      rcases closing c first with rfl | rfl <;> rfl
    rw [bareName, opened, ← List.append_assoc, Text.takeWhile_run goesOn stops]
    exact (Text.stripStartAll_iff dotted).2 ⟨⟨n, rfl⟩, ended⟩

theorem remark_iff : remark t = text ↔ Remarks t text := by
  constructor
  · rintro rfl
    have strips := Text.strips_trim t
    have split := List.takeWhile_append_dropWhile (p := (· == '-')) (l := trim t)
    refine ⟨_, _, split ▸ strips, fun c member => ?_, fun first => ?_, Text.strips_trim _⟩
    · exact beq_iff_eq.1 (List.mem_takeWhile_imp (p := (· == '-')) member)
    · have other := Text.head?_dropWhile (· == '-') (trim t) '-' first
      cases other
  · rintro ⟨hyphens, rest, strips, all, started, said⟩
    have bare : trimStartOf (· == '-') (hyphens ++ rest) = rest := by
      refine Text.dropWhile_run (fun c member => beq_iff_eq.2 (all c member)) fun c first => ?_
      rw [beq_eq_false_iff_ne]
      rintro rfl
      exact started first
    rw [remark, strips.eq, bare, said.eq]

end

/-- Whether a text without a type names a parameter with its first word, and says something on it
with the others. -/
def NamesParameter (t name text : Text) : Prop := ∃ word more, t = word ++ more ∧
  (∀ c ∈ word, isBlank c = false) ∧ (∀ c ∈ more.head?, isBlank c = true) ∧
  WritesName word name ∧ name ≠ [] ∧ Remarks more text

theorem remark_tail {t : Text} (blank : ∀ c ∈ t.head?, isBlank c = true) :
    remark t.tail = remark t := by
  cases t with
  | nil => rfl
  | cons c t =>
      have same : trim (c :: t) = trim t := by
        rw [trim, trim, Text.trimOf, Text.trimOf, trimStartOf, List.dropWhile_cons_of_pos (blank c rfl)]
        rfl
      rw [remark, remark, same, List.tail_cons]

theorem parseParam_eq (body : Text) : parseParam body =
    if bareName ((stripTypeBraces body).takeWhile fun c => !isBlank c) = [] then none
    else some (bareName ((stripTypeBraces body).takeWhile fun c => !isBlank c),
      remark ((stripTypeBraces body).dropWhile fun c => !isBlank c)) := by
  have first : ∀ c ∈ ((stripTypeBraces body).dropWhile fun c => !isBlank c).head?,
      isBlank c = true := by
    intro c head
    have stop := Text.head?_dropWhile (fun c => !isBlank c) (stripTypeBraces body) c head
    rwa [Bool.not_eq_false'] at stop
  rw [← remark_tail first, parseParam]
  simp only [splitOnce_getD, List.isEmpty_iff]
  rfl

theorem parseParam_of_split {body raw rest : Text} (split : stripTypeBraces body = raw ++ rest)
    (visible : ∀ c ∈ raw, isBlank c = false) (ends : ∀ c ∈ rest.head?, isBlank c = true)
    (named : bareName raw ≠ []) :
    parseParam body = some (bareName raw, remark rest) := by
  have inside : ∀ c ∈ raw, (!isBlank c) = true := by
    intro c member
    rw [visible c member]
    rfl
  have outside : ∀ c ∈ rest.head?, (!isBlank c) = false := by
    intro c first
    rw [ends c first]
    rfl
  rw [parseParam_eq, split, Text.takeWhile_run inside outside, Text.dropWhile_run inside outside,
    if_neg named]

theorem parseParam_iff {body name text : Text} : parseParam body = some (name, text) ↔
    ∃ t, Untyped body t ∧ NamesParameter t name text := by
  constructor
  · intro parsed
    rw [parseParam_eq] at parsed
    split at parsed
    · cases parsed
    · next named =>
        cases parsed
        refine ⟨_, stripTypeBraces_iff.1 rfl, _, _, List.takeWhile_append_dropWhile.symm,
          fun c member => ?_, fun c first => ?_, bareName_iff.1 rfl, named, remark_iff.1 rfl⟩
        · have kept := List.mem_takeWhile_imp member
          rwa [Bool.not_eq_true'] at kept
        · have stop := Text.head?_dropWhile (fun c => !isBlank c) (stripTypeBraces body) c first
          rwa [Bool.not_eq_false'] at stop
  · rintro ⟨t, untyped, word, more, rfl, visible, ends, named, filled, said⟩
    obtain rfl := bareName_iff.2 named
    rw [parseParam_of_split (stripTypeBraces_iff.2 untyped) visible ends filled, remark_iff.2 said]

end ApiReference.Declaration.Documentation
