import ApiReference.Proofs.Markdown.Grammar
import ApiReference.Proofs.Text.Classes

/-!
# Reading documents in Markdown

Every plain element of a document is read as what it is, so that the examples of a plain document
are those of its fenced blocks. An element that is not plain spoils some document.
-/

namespace ApiReference.Markdown
open ApiReference.Package

theorem isBlank_of_isGap {c : Char} (gap : isGap c = true) : Text.isBlank c = true := by
  simp only [isGap, Bool.or_eq_true, beq_iff_eq] at gap
  obtain rfl | rfl := gap <;> decide

theorem afterIndent_spaces {n : Nat} {t : Text} (few : n ≤ 3)
    (visible : ∀ c ∈ t.head?, Text.isBlank c = false) : afterIndent (spaces n ++ t) = t := by
  have blank : ∀ c ∈ spaces n, Text.isBlank c = true := by
    intro c member
    rw [List.eq_of_mem_replicate member]
    decide
  rw [afterIndent, Text.takeWhile_run blank visible, spaces, List.length_replicate]
  simp only [Nat.min_eq_left few, List.drop_left' List.length_replicate]

theorem unindented_spaces {n : Nat} {t : Text} (few : n ≤ 3) (other : ∀ c ∈ t.head?, c ≠ ' ') :
    unindented (spaces n ++ t) = t := by
  have all : ∀ c ∈ spaces n, (c == ' ') = true := by
    intro c member
    rw [List.eq_of_mem_replicate member, beq_self_eq_true]
  have ends : ∀ c ∈ t.head?, (c == ' ') = false := fun c found => beq_false_of_ne (other c found)
  rw [unindented, Text.takeWhile_run all ends, spaces, List.length_replicate,
    Nat.min_eq_left few, List.drop_left' List.length_replicate]

theorem trimStart_eq_unindented {line : Text}
    (visible : ∀ c ∈ (unindented line).head?, Text.isBlank c = false) :
    Text.trimStart line = unindented line := by
  generalize few : min (line.takeWhile (· == ' ')).length 3 = n
  have begins : line.take n <+: line.takeWhile (· == ' ') :=
    List.prefix_of_prefix_length_le (List.take_prefix _ _) (List.takeWhile_prefix _)
      (by rw [List.length_take]; omega)
  have blank : ∀ c ∈ line.take n, Text.isBlank c = true := by
    intro c member
    have space := List.mem_takeWhile_imp (begins.mem member)
    rw [beq_iff_eq] at space
    rw [space]
    decide
  rw [unindented, few] at visible ⊢
  conv_lhs => rw [← List.take_append_drop n line]
  exact Text.dropWhile_run blank visible

theorem isHeadingEnd_of_visible {t : Text} {c : Char} (member : c ∈ t)
    (visible : Text.isBlank c = false) (noSign : c ≠ '#') : isHeadingEnd t = false := by
  have keeps {p : Char → Bool} {u : Text} (other : p c = false) (inside : c ∈ u) :
      c ∈ u.dropWhile p := by
    rw [← List.takeWhile_append_dropWhile (p := p) (l := u), List.mem_append] at inside
    refine inside.resolve_left fun early => ?_
    rw [List.mem_takeWhile_imp early] at other
    exact Bool.noConfusion other
  have stays :=
    keeps visible (keeps (p := (· == '#')) (beq_false_of_ne noSign) (keeps visible member))
  rw [isHeadingEnd, List.isEmpty_eq_false_iff]
  exact List.ne_nil_of_mem stays

theorem Heading.isHeadingEnd_closing (h : Heading) : isHeadingEnd h.closing = true := by
  have blank {t : Text} (gap : ∀ c ∈ t, isGap c = true) : ∀ c ∈ t, Text.isBlank c = true :=
    fun c member => isBlank_of_isGap (gap c member)
  have signs : ∀ c ∈ List.replicate h.closingSigns '#', (c == '#') = true := by
    intro c member
    rw [List.eq_of_mem_replicate member, beq_self_eq_true]
  have last : ∀ t : Text, (∀ c ∈ t, Text.isBlank c = true) →
      ((t.dropWhile (· == '#')).dropWhile Text.isBlank).isEmpty = true := by
    intro t all
    rw [List.isEmpty_iff, List.dropWhile_eq_nil_iff]
    exact fun c member => all c ((List.dropWhile_sublist _).mem member)
  rw [isHeadingEnd, closing, List.dropWhile_append_of_pos (blank h.closingGap_isGap)]
  cases count : h.closingSigns with
  | zero =>
      rw [List.replicate_zero, List.nil_append]
      exact last _ fun c member =>
        blank h.endGap_isGap c ((List.dropWhile_sublist _).mem member)
  | succ n =>
      rw [count] at signs
      rw [List.replicate_succ, List.cons_append, List.dropWhile_cons_of_neg (by decide),
        ← List.cons_append, ← List.replicate_succ, List.dropWhile_append_of_pos signs]
      exact last _ (blank h.endGap_isGap)

/-- A title ends where nothing visible is left but signs. -/
theorem headingTitle_append {t z : Text} (ends : isHeadingEnd z = true)
    (last : ∀ c ∈ t.getLast?, Text.isBlank c = false ∧ c ≠ '#') (some : t ≠ []) :
    headingTitle (t ++ z) = t := by
  induction t with
  | nil => exact absurd rfl some
  | cons c t ih =>
      rw [List.cons_append, headingTitle]
      cases t with
      | nil => rw [List.nil_append, ends, if_pos rfl]
      | cons d t =>
          have found := List.getLast?_eq_some_getLast (List.cons_ne_nil d t)
          rw [List.getLast?_cons_cons] at last
          have goesOn : isHeadingEnd (d :: t ++ z) = false :=
            isHeadingEnd_of_visible (List.mem_append_left z (List.mem_of_getLast? found))
              (last _ found).1 (last _ found).2
          rw [goesOn, ih last (List.cons_ne_nil d t)]
          simp

theorem head?_headingTitle (t : Text) : (headingTitle t).head? = t.head? := by
  cases t with
  | nil => rfl
  | cons c t =>
      rw [headingTitle]
      split <;> rfl

theorem headingTitle_eq_nil {t : Text} (nothing : headingTitle t = []) : t = [] := by
  rw [← List.head?_eq_none_iff, ← head?_headingTitle, nothing, List.head?_nil]

theorem isBlank_getLast?_headingTitle {t : Text}
    (visible : (∀ c ∈ t.head?, Text.isBlank c = false) ∨ isHeadingEnd t = false) :
    ∀ c ∈ (headingTitle t).getLast?, Text.isBlank c = false := by
  induction t with
  | nil => exact fun c found => absurd found (by simp [headingTitle])
  | cons d t ih =>
      rw [headingTitle]
      cases ends : isHeadingEnd t with
      | true =>
          rw [if_pos rfl]
          intro c found
          obtain rfl : d = c := by simpa using found
          refine visible.elim (fun first => first d rfl) fun goesOn => ?_
          by_contra blank
          rw [Bool.not_eq_false] at blank
          rw [isHeadingEnd, List.dropWhile_cons_of_pos blank, ← isHeadingEnd, ends] at goesOn
          exact Bool.noConfusion goesOn
      | false =>
          rw [if_neg Bool.false_ne_true]
          have last := ih (.inr ends)
          cases title : headingTitle t with
          | nil =>
              obtain rfl := headingTitle_eq_nil title
              exact absurd ends (by decide)
          | cons e u =>
              rw [title] at last
              rwa [List.getLast?_cons_cons]

/-- What is read after the signs of a heading. -/
def titleAfter (t : Text) : Option Text :=
  let blanks := t.takeWhile Text.isBlank
  let title := t.dropWhile Text.isBlank
  if blanks.isEmpty then none
  else if title.isEmpty then
    if blanks.length < 2 then none else some (blanks.drop (blanks.length - 1))
  else some (headingTitle title)

theorem titleAfter_of_blank {t : Text} (blank : ∀ c ∈ t, Text.isBlank c = true) :
    titleAfter t = if t.length < 2 then none else some (t.drop (t.length - 1)) := by
  rw [titleAfter, List.takeWhile_eq_self_iff.2 blank, List.dropWhile_eq_nil_iff.2 blank]
  cases t with
  | nil => rfl
  | cons c t => rfl

theorem heading?_eq (line : Text) : heading? line =
    if 1 ≤ run '#' (afterIndent line) ∧ run '#' (afterIndent line) ≤ 6 then
      titleAfter ((afterIndent line).dropWhile (· == '#')) else none := by
  rw [heading?, titleAfter, run]
  generalize (afterIndent line).takeWhile (· == '#') = signs
  generalize (afterIndent line).dropWhile (· == '#') = t
  cases signs with
  | nil => rfl
  | cons c signs =>
      by_cases few : signs.length + 1 ≤ 6
      · have fits : ¬ 6 < signs.length + 1 := by omega
        simp [few, fits]
      · have exceeds : 6 < signs.length + 1 := by omega
        simp [few, exceeds]

namespace Heading
variable (h : Heading)

/-- What stands after the signs of a heading. -/
def rest : Text := h.gap ++ (h.title ++ h.closing)

theorem isGap_head?_closing : ∀ c ∈ h.closing.head?, isGap c = true := by
  intro c first
  rw [closing] at first
  cases gap : h.closingGap with
  | nil =>
      have unsigned : h.closingSigns = 0 :=
        Nat.eq_zero_of_not_pos fun signed => h.closing_apart signed gap
      rw [gap, unsigned, List.replicate_zero, List.nil_append, List.nil_append] at first
      exact h.endGap_isGap c (List.mem_of_mem_head? first)
  | cons d gap' =>
      rw [gap, List.cons_append, List.head?_cons, Option.mem_some_iff] at first
      exact first ▸ h.closingGap_isGap d (gap ▸ List.mem_cons_self)

theorem isGap_of_blank {c : Char} (member : c ∈ h.closing) (blank : Text.isBlank c = true) :
    isGap c = true := by
  simp only [closing, List.mem_append] at member
  obtain gap | sign | gap := member
  · exact h.closingGap_isGap c gap
  · rw [List.eq_of_mem_replicate sign] at blank
    exact absurd blank (by decide)
  · exact h.endGap_isGap c gap

theorem isGap_head?_rest : ∀ c ∈ h.rest.head?, isGap c = true := by
  intro c first
  rw [rest] at first
  cases gap : h.gap with
  | nil =>
      have untitled : h.title = [] := by_contra fun titled => h.title_apart titled gap
      rw [gap, untitled, List.nil_append, List.nil_append] at first
      exact h.isGap_head?_closing c first
  | cons d gap' =>
      rw [gap, List.cons_append, List.head?_cons, Option.mem_some_iff] at first
      exact first ▸ h.gap_isGap d (gap ▸ List.mem_cons_self)

theorem afterIndent_line : afterIndent h.line = List.replicate h.level '#' ++ h.rest := by
  rw [line, ← rest]
  refine afterIndent_spaces h.indent_le fun c first => ?_
  obtain ⟨level, count⟩ := Nat.exists_eq_add_of_le' h.level_pos
  rw [count, List.replicate_succ, List.cons_append, List.head?_cons, Option.mem_some_iff] at first
  rw [← first]
  decide

theorem heading?_line : heading? h.line = titleAfter h.rest := by
  have signs : ∀ c ∈ List.replicate h.level '#', (c == '#') = true := by
    intro c member
    rw [List.eq_of_mem_replicate member, beq_self_eq_true]
  have ends : ∀ c ∈ h.rest.head?, (c == '#') = false := by
    intro c first
    refine beq_false_of_ne ?_
    rintro rfl
    exact absurd (h.isGap_head?_rest _ first) (by decide)
  rw [heading?_eq, h.afterIndent_line, run, Text.takeWhile_run signs ends,
    Text.dropWhile_run signs ends, List.length_replicate, if_pos ⟨h.level_pos, h.level_le⟩]

/-- Where nothing visible is after the signs, the last blank is read as the title. -/
theorem titleAfter_rest_of_blank (blank : ∀ c ∈ h.rest, Text.isBlank c = true) :
    titleAfter h.rest = some h.title ↔ h.title.length = 1 ∧ h.closing = [] := by
  have length : h.rest.length = h.gap.length + (h.title.length + h.closing.length) := by
    rw [rest, List.length_append, List.length_append]
  rw [titleAfter_of_blank blank]
  constructor
  · intro read
    split at read
    · exact nomatch read
    · rw [Option.some.injEq] at read
      have single : h.title.length = 1 := by
        rw [← read, List.length_drop]
        omega
      refine ⟨single, by_contra fun closed => ?_⟩
      -- the last blank would be a gap, and no title is one
      have last : h.title = [h.closing.getLast closed] := by
        rw [← read, List.drop_length_sub_one (List.ne_nil_of_length_pos (by omega))]
        simp only [rest, List.getLast_append_of_ne_nil, closed, ne_eq, List.append_eq_nil_iff,
          and_false, not_false_eq_true]
      have apart := h.title_starts (h.closing.getLast closed) (by rw [last]; rfl)
      rw [h.isGap_of_blank (List.getLast_mem closed) (blank _ ?_)] at apart
      · exact Bool.noConfusion apart
      · rw [rest]
        exact List.mem_append_right _ (List.mem_append_right _ (List.getLast_mem closed))
  · rintro ⟨single, unclosed⟩
    have apart : 0 < h.gap.length :=
      List.length_pos_iff.2 (h.title_apart (List.ne_nil_of_length_pos (by omega)))
    rw [if_neg (by omega), length, unclosed, single, rest, unclosed, List.append_nil]
    simp only [List.length_nil, Nat.add_zero, Nat.add_sub_cancel, List.drop_left']

/-- A plain title has something to see at both ends. -/
theorem visible_title (plain : (Element.heading h).IsPlain)
    (goesOn : ¬ ∀ c ∈ h.rest, Text.isBlank c = true) :
    h.title ≠ [] ∧ (∀ c ∈ h.title.head?, Text.isBlank c = false) ∧
      ∀ c ∈ h.title.getLast?, Text.isBlank c = false := by
  refine plain.elim id fun ⟨single, unclosed⟩ => ?_
  obtain ⟨c, title⟩ := List.length_eq_one_iff.1 single
  have shown : Text.isBlank c = false := by
    rw [Bool.eq_false_iff]
    intro hidden
    refine goesOn fun d member => ?_
    rw [rest, title, unclosed, List.append_nil, List.mem_append, List.mem_singleton] at member
    obtain gap | rfl := member
    · exact isBlank_of_isGap (h.gap_isGap d gap)
    · exact hidden
  simp [title, shown]

theorem titleAfter_of_isPlain (plain : (Element.heading h).IsPlain)
    (goesOn : ¬ ∀ c ∈ h.rest, Text.isBlank c = true) : titleAfter h.rest = some h.title := by
  obtain ⟨titled, starts, ends⟩ := h.visible_title plain goesOn
  have gap : ∀ c ∈ h.gap, Text.isBlank c = true := fun c member =>
    isBlank_of_isGap (h.gap_isGap c member)
  have first : ∀ c ∈ (h.title ++ h.closing).head?, Text.isBlank c = false := by
    rw [List.head?_append_of_ne_nil _ titled]
    exact starts
  have last : ∀ c ∈ h.title.getLast?, Text.isBlank c = false ∧ c ≠ '#' := fun c found =>
    ⟨ends c found, (h.title_ends c found).2⟩
  rw [titleAfter, rest, Text.takeWhile_run gap first, Text.dropWhile_run gap first]
  simp [h.title_apart titled, titled, headingTitle_append h.isHeadingEnd_closing last titled]

theorem isPlain_of_titleAfter (read : titleAfter h.rest = some h.title)
    (goesOn : ¬ ∀ c ∈ h.rest, Text.isBlank c = true) : (Element.heading h).IsPlain := by
  have visible := Text.head?_dropWhile Text.isBlank h.rest
  have filled : h.rest.dropWhile Text.isBlank ≠ [] := by
    rwa [ne_eq, List.dropWhile_eq_nil_iff]
  rw [titleAfter, List.isEmpty_eq_false_iff.2 filled] at read
  split at read
  · cases read
  · rw [if_neg Bool.false_ne_true, Option.some.injEq] at read
    refine .inl ⟨?_, ?_, ?_⟩ <;> rw [← read]
    · exact mt headingTitle_eq_nil filled
    · rwa [head?_headingTitle]
    · exact isBlank_getLast?_headingTitle (.inl visible)

/-- Plain headings and no others are read with their title. -/
theorem titleAfter_rest : titleAfter h.rest = some h.title ↔ (Element.heading h).IsPlain := by
  by_cases blank : ∀ c ∈ h.rest, Text.isBlank c = true
  · rw [h.titleAfter_rest_of_blank blank, Element.IsPlain, or_iff_right]
    rintro ⟨titled, starts, -⟩
    obtain ⟨c, first⟩ := Option.isSome_iff_exists.1 (List.isSome_head?.2 titled)
    have member : c ∈ h.rest := by
      rw [rest]
      exact List.mem_append_right _ (List.mem_append_left _ (List.mem_of_mem_head? first))
    exact Bool.noConfusion ((starts c first).symm.trans (blank c member))
  · exact ⟨fun read => h.isPlain_of_titleAfter read blank,
      fun plain => h.titleAfter_of_isPlain plain blank⟩

theorem fence?_line : fence? h.line = none := by
  obtain ⟨level, count⟩ := Nat.exists_eq_add_of_le' h.level_pos
  rw [fence?, h.afterIndent_line, count, List.replicate_succ, List.cons_append]
  rfl

end Heading

theorem isSome_titleAfter_iff {t : Text} :
    (titleAfter t).isSome ↔ ∃ blank c rest, Text.isBlank blank = true ∧ t = blank :: c :: rest := by
  match t with
  | [] => simp [titleAfter]
  | [b] => cases blank : Text.isBlank b <;> simp [titleAfter, blank]
  | b :: c :: rest =>
      cases first : Text.isBlank b with
      | false => simp [titleAfter, first]
      | true =>
          by_cases blank : ∀ d ∈ b :: c :: rest, Text.isBlank d = true
          · simp [titleAfter_of_blank blank, first]
          · rw [← List.dropWhile_eq_nil_iff, ← List.isEmpty_iff, Bool.not_eq_true] at blank
            rw [titleAfter, blank, List.takeWhile_cons_of_pos first]
            exact ⟨fun _ => ⟨b, c, rest, first, rfl⟩, fun _ => rfl⟩

theorem isSome_heading?_iff {line : Text} : (heading? line).isSome ↔ LooksLikeHeading line := by
  rw [heading?_eq, LooksLikeHeading]
  constructor
  · intro found
    split at found
    · next few =>
        obtain ⟨blank, c, rest, isBlank, after⟩ := isSome_titleAfter_iff.1 found
        refine ⟨_, blank, c, rest, few.1, few.2, isBlank, ?_⟩
        have signs : (afterIndent line).takeWhile (· == '#') =
            List.replicate (run '#' (afterIndent line)) '#' := by
          refine List.eq_replicate_iff.2 ⟨rfl, fun d member => ?_⟩
          simpa using List.mem_takeWhile_imp member
        rw [← signs, ← after, List.takeWhile_append_dropWhile]
    · exact nomatch found
  · rintro ⟨level, blank, c, rest, pos, le, isBlank, split⟩
    have signs : ∀ d ∈ List.replicate level '#', (d == '#') = true := by
      intro d member
      rw [List.eq_of_mem_replicate member, beq_self_eq_true]
    have ends : ∀ d ∈ (blank :: c :: rest).head?, (d == '#') = false := by
      rintro d ⟨⟩
      refine beq_false_of_ne ?_
      rintro rfl
      exact absurd isBlank (by decide)
    rw [split, run, Text.takeWhile_run signs ends, Text.dropWhile_run signs ends,
      List.length_replicate, if_pos ⟨pos, le⟩]
    exact isSome_titleAfter_iff.2 ⟨blank, c, rest, isBlank, rfl⟩

theorem isMark_iff {c : Char} :
    (c.toNat == 0x60 || c == '~') = true ↔ c = backtick ∨ c = '~' := by
  rw [Bool.or_eq_true, beq_iff_eq, beq_iff_eq]
  refine or_congr_left ⟨fun code => ?_, ?_⟩
  · rw [← Char.ofNat_toNat c, code, backtick]
  · rintro rfl
    rfl

theorem visible_mark {c : Char} (mark : c = backtick ∨ c = '~') :
    Text.isBlank c = false ∧ isLanguageChar c = false ∧ isGap c = false ∧ c ≠ '#' := by
  obtain rfl | rfl := mark <;> decide

theorem not_isLanguageChar_of_isGap {c : Char} (gap : isGap c = true) :
    isLanguageChar c = false := by
  simp only [isGap, Bool.or_eq_true, beq_iff_eq] at gap
  obtain rfl | rfl := gap <;> decide

theorem visible_of_isLanguageChar {c : Char} (language : isLanguageChar c = true) :
    Text.isBlank c = false := by
  simp only [isLanguageChar, Bool.or_eq_true, beq_iff_eq] at language
  obtain ((((fits | rfl) | rfl) | rfl) | rfl) | rfl := language
  · exact Text.not_isBlank_of_isAlphanum fits
  all_goals decide

theorem isSome_fence?_iff {line : Text} : (fence? line).isSome ↔ LooksLikeFence line := by
  rw [fence?, LooksLikeFence]
  cases afterIndent line with
  | nil => simp
  | cons c t =>
      simp only [Bool.and_eq_true, isMark_iff, decide_eq_true_eq, ← Text.replicate_prefix_iff]
      constructor
      · intro found
        split at found
        · next opens => exact ⟨c, opens⟩
        · exact nomatch found
      · rintro ⟨mark, valid, begins⟩
        obtain rfl : mark = c := by
          rw [List.replicate_succ, List.cons_prefix_cons] at begins
          exact begins.1
        rw [if_pos ⟨valid, begins⟩]
        rfl

theorem isClosedBy_iff {f : Fence} {line : Text} :
    f.isClosedBy line = true ↔ f.marks <+: Text.trimStart line := Text.startsWith_iff

namespace Fenced
variable (b : Fenced)

def fence : Fence := ⟨b.marks, b.language⟩

@[simp] theorem marks_fence : b.fence.marks = b.marks := rfl

theorem exists_marks_eq : ∃ more, b.marks = b.mark :: more := by
  obtain ⟨n, count⟩ := Nat.exists_eq_add_of_le' b.three_le_count
  exact ⟨_, by rw [marks, count, List.replicate_succ]⟩

theorem mark_not_mem_of_isGap {t : Text} (gap : ∀ c ∈ t, isGap c = true) : b.mark ∉ t := by
  intro member
  have := gap _ member
  rw [(visible_mark b.mark_eq).2.2.1] at this
  exact Bool.noConfusion this

theorem afterIndent_opening :
    afterIndent b.opening = b.marks ++ (b.gap ++ (b.info ++ b.endGap)) := by
  refine afterIndent_spaces b.indent_le fun c first => ?_
  obtain ⟨more, marks⟩ := b.exists_marks_eq
  rw [marks, List.cons_append, List.head?_cons, Option.mem_some_iff] at first
  exact first ▸ (visible_mark b.mark_eq).1

theorem heading?_opening : heading? b.opening = none := by
  obtain ⟨more, marks⟩ := b.exists_marks_eq
  rw [heading?_eq, b.afterIndent_opening, marks, List.cons_append, run,
    List.takeWhile_cons_of_neg, if_neg (by simp)]
  simpa using (visible_mark b.mark_eq).2.2.2

theorem info_of_opening :
    ((b.gap ++ (b.info ++ b.endGap)).dropWhile Text.isBlank).takeWhile isLanguageChar = b.info := by
  have gap : ∀ c ∈ b.gap, Text.isBlank c = true := fun c member =>
    isBlank_of_isGap (b.gap_isGap c member)
  cases info : b.info with
  | nil =>
      have nothing : b.endGap.dropWhile Text.isBlank = [] :=
        List.dropWhile_eq_nil_iff.2 fun c member => isBlank_of_isGap (b.endGap_isGap c member)
      rw [List.dropWhile_append_of_pos gap, List.nil_append, nothing, List.takeWhile_nil]
  | cons d info' =>
      have language : ∀ c ∈ d :: info', isLanguageChar c = true := info ▸ b.info_isLanguage
      have ends : ∀ c ∈ b.endGap.head?, isLanguageChar c = false := fun c first =>
        not_isLanguageChar_of_isGap (b.endGap_isGap c (List.mem_of_mem_head? first))
      rw [Text.dropWhile_run gap, Text.takeWhile_run language ends]
      rintro c ⟨⟩
      exact visible_of_isLanguageChar (language d List.mem_cons_self)

theorem fence?_opening : fence? b.opening = some b.fence := by
  have more : ∀ c ∈ b.marks, (c == b.mark) = true := by
    intro c member
    rw [List.eq_of_mem_replicate member, beq_self_eq_true]
  have ends : ∀ c ∈ (b.gap ++ (b.info ++ b.endGap)).head?, (c == b.mark) = false := by
    intro c first
    refine beq_false_of_ne ?_
    rintro rfl
    have member := List.mem_of_mem_head? first
    rw [List.mem_append, List.mem_append] at member
    obtain gap | language | gap := member
    · exact b.mark_not_mem_of_isGap b.gap_isGap gap
    · have := b.info_isLanguage _ language
      rw [(visible_mark b.mark_eq).2.1] at this
      exact Bool.noConfusion this
    · exact b.mark_not_mem_of_isGap b.endGap_isGap gap
  have opens : fence? b.opening = if (b.mark.toNat == 0x60 || b.mark == '~') &&
      3 ≤ ((afterIndent b.opening).takeWhile (· == b.mark)).length then
        let language := (((afterIndent b.opening).drop
          ((afterIndent b.opening).takeWhile (· == b.mark)).length).dropWhile
            Text.isBlank).takeWhile isLanguageChar
        some ⟨(afterIndent b.opening).takeWhile (· == b.mark),
          if language.isEmpty then "text".toList else Text.lower language⟩
      else none := by
    obtain ⟨rest, marks⟩ := b.exists_marks_eq
    rw [fence?, b.afterIndent_opening, marks, List.cons_append]
  have valid : (b.mark.toNat == 0x60 || b.mark == '~') = true := isMark_iff.2 b.mark_eq
  have enough : decide (3 ≤ b.marks.length) = true := by
    rw [marks, List.length_replicate, decide_eq_true_eq]
    exact b.three_le_count
  rw [opens, b.afterIndent_opening, Text.takeWhile_run more ends, valid, enough, Bool.and_self,
    if_pos rfl, List.drop_left, b.info_of_opening, fence, language]
  simp only [List.isEmpty_iff]

/-- What closes a block by the grammar closes it for the reader. -/
theorem isClosedBy_of_closesFence {line : Text}
    (closes : closesFence b.mark b.count line = true) : b.fence.isClosedBy line = true := by
  simp only [closesFence, Bool.and_eq_true, decide_eq_true_eq, run,
    ← Text.replicate_prefix_iff] at closes
  have begins : b.marks <+: unindented line := closes.1
  rw [isClosedBy_iff, trimStart_eq_unindented]
  · exact begins
  · obtain ⟨more, marks⟩ := b.exists_marks_eq
    obtain ⟨t, split⟩ := begins
    intro c first
    rw [← split, marks, List.cons_append, List.head?_cons, Option.mem_some_iff] at first
    exact first ▸ (visible_mark b.mark_eq).1

theorem closesFence_closing : closesFence b.mark b.count b.closing = true := by
  have marks : ∀ c ∈ List.replicate b.closingCount b.mark, (c == b.mark) = true := by
    intro c member
    rw [List.eq_of_mem_replicate member, beq_self_eq_true]
  have ends : ∀ c ∈ b.closingGap.head?, (c == b.mark) = false := by
    intro c first
    refine beq_false_of_ne ?_
    rintro rfl
    exact b.mark_not_mem_of_isGap b.closingGap_isGap (List.mem_of_mem_head? first)
  have bare : unindented b.closing = List.replicate b.closingCount b.mark ++ b.closingGap := by
    refine unindented_spaces b.closingIndent_le ?_
    obtain ⟨n, count⟩ := Nat.exists_eq_add_of_le' (b.three_le_count.trans b.count_le_closing)
    rw [count, List.replicate_succ, List.cons_append]
    rintro c ⟨⟩ space
    have gap := (visible_mark b.mark_eq).2.2.1
    rw [space] at gap
    exact absurd gap (by decide)
  rw [closesFence, bare, run, Text.takeWhile_run marks ends, List.length_replicate,
    List.drop_left' List.length_replicate, Bool.and_eq_true, decide_eq_true_eq, List.all_eq_true]
  exact ⟨b.count_le_closing, b.closingGap_isGap⟩

end Fenced

instance : DecidablePred Element.IsPlain
  | .heading h => inferInstanceAs (Decidable ((h.title ≠ [] ∧
      (∀ c ∈ h.title.head?, Text.isBlank c = false) ∧
      ∀ c ∈ h.title.getLast?, Text.isBlank c = false) ∨ h.title.length = 1 ∧ h.closing = []))
  | .prose line .. => decidable_of_iff
      (¬ (heading? line).isSome = true ∧ ¬ (fence? line).isSome = true)
      (and_congr (not_congr isSome_heading?_iff) (not_congr isSome_fence?_iff))
  | .fenced b => inferInstanceAs (Decidable (∀ line ∈ b.body, ¬ b.marks <+: Text.trimStart line))

end ApiReference.Markdown
