import ApiReference.Proofs.Text.Pattern
import ApiReference.Proofs.Text.Trimming
import ApiReference.Query.Version

/-!
# Versions are marked

A version is read only directly after something that marks it: the letter v or the word "version",
neither inside a word, or an at sign, and then only with a dot between digits. However the patterns
go back and forth, a bare number is never a version. Main statement: `extract?_marked`.
-/

namespace ApiReference

namespace Text

/-- The characters whose small form is a letter are that letter and its capital. -/
theorem eq_of_toLower_eq_v {c : Char} (h : c.toLower = 'v') : c = 'v' ∨ c = 'V' := by
  have ascii : ∀ n < 128, (Char.ofNat n).toLower = 'v' →
      Char.ofNat n = 'v' ∨ Char.ofNat n = 'V' := by
    decide +kernel
  by_cases small : c.toNat < 128
  · have listed := ascii c.toNat small
    rw [Char.ofNat_toNat] at listed
    exact listed h
  · have same : c.toLower = c := by
      unfold Char.toLower
      split
      · next capital =>
          obtain ⟨above, below⟩ : 0x41 ≤ c.toNat ∧ c.toNat ≤ 0x5A := capital
          omega
      · rfl
    exact .inl (same ▸ h)

end Text

namespace Query.Version
open ApiReference.Text (Pattern Hit isDecimal isBlank isWordChar isBoundary trimEndOf)
open ApiReference.Text.Pattern (Reads)

/-- No character of a word stands directly before. -/
def Free (before : Text) : Prop := before.getLast?.any isWordChar = false

/-- The small form of a letter, which for the long s is an s. -/
def foldCase (c : Char) : Char := if c.toNat = 0x17F then 's' else c.toLower

/-- What marks the text after it as a version. -/
inductive IsMarker (before : Text) : Text → Prop where
  | letter {c : Char} (isV : c = 'v' ∨ c = 'V') (free : Free before) : IsMarker before [c]
  | word {w blanks : Text} (spelled : w.map foldCase = "version".toList) (nonempty : blanks ≠ [])
      (blank : ∀ c ∈ blanks, isBlank c = true) (free : Free before) : IsMarker before (w ++ blanks)
  | atSign : IsMarker before ['@']

def StartsWithDigit (t : Text) : Prop := ∃ d rest, t = d :: rest ∧ isDecimal d = true

def HasDotBetweenDigits (t : Text) : Prop :=
  ∃ a d e b, t = a ++ d :: '.' :: e :: b ∧ isDecimal d = true ∧ isDecimal e = true

theorem isDecimal_ne_dot {d : Char} (digit : isDecimal d = true) : (d == '.') = false := by
  rw [beq_eq_false_iff_ne]
  rintro rfl
  exact absurd digit (by decide)

theorem StartsWithDigit.trimEndOf {t : Text} (h : StartsWithDigit t) :
    StartsWithDigit (trimEndOf (· == '.') t) := by
  obtain ⟨d, rest, rfl, digit⟩ := h
  exact ⟨d, _, Text.trimEndOf_append_cons (p := (· == '.')) (isDecimal_ne_dot digit) [] rest, digit⟩

theorem HasDotBetweenDigits.trimEndOf {t : Text} (h : HasDotBetweenDigits t) :
    HasDotBetweenDigits (trimEndOf (· == '.') t) := by
  obtain ⟨a, d, e, b, rfl, digit, digit'⟩ := h
  have kept := Text.trimEndOf_append_cons (p := (· == '.')) (isDecimal_ne_dot digit')
    (a ++ [d, '.']) b
  simp only [List.append_assoc, List.cons_append, List.nil_append] at kept
  exact ⟨a, d, e, _, kept, digit, digit'⟩

/-- Digits come first. -/
theorem reads_digits {ps : List Pattern} {h h' : Hit} (reads : Reads (.all (digits :: ps)) h h') :
    ∃ w, StartsWithDigit w ∧ h.Passes w h' := by
  obtain ⟨m, number, more⟩ := Text.Pattern.reads_all_cons.mp reads
  obtain ⟨d, ds, digit, -, first⟩ := number.some_one
  obtain ⟨w, second⟩ := more.passes
  exact ⟨(d :: ds) ++ w, ⟨d, ds ++ w, rfl, digit⟩, first.trans second⟩

/-- Digits come first, and after a dot there are more. -/
theorem reads_dotted {ps : List Pattern} {h h' : Hit}
    (reads : Reads (.all (digits :: dotDigits :: ps)) h h') :
    ∃ w, (StartsWithDigit w ∧ HasDotBetweenDigits w) ∧ h.Passes w h' := by
  obtain ⟨m, number, more⟩ := Text.Pattern.reads_all_cons.mp reads
  obtain ⟨m', fraction, more⟩ := Text.Pattern.reads_all_cons.mp more
  obtain ⟨m'', dot, fraction⟩ := Text.Pattern.reads_seq.mp fraction
  obtain ⟨c, rest, next, isDot, rfl⟩ := Text.Pattern.reads_one.mp dot
  obtain rfl : c = '.' := beq_iff_eq.mp isDot
  obtain ⟨d, ds, digit, digits, first⟩ := number.some_one
  obtain ⟨e, es, digit', -, third⟩ := fraction.some_one
  obtain ⟨w, last⟩ := more.passes
  have final : isDecimal ((d :: ds).getLast (List.cons_ne_nil d ds)) = true :=
    List.forall_mem_cons (p := (isDecimal · = true)).mpr ⟨digit, digits⟩ _ (List.getLast_mem _)
  refine ⟨(d :: ds) ++ (['.'] ++ ((e :: es) ++ w)), ⟨⟨d, _, rfl, digit⟩, ?_⟩,
    first.trans ((Hit.Passes.char next).trans (third.trans last))⟩
  refine ⟨(d :: ds).dropLast, _, e, es ++ w, ?_, final, digit'⟩
  conv_lhs => rw [← List.dropLast_append_getLast (List.cons_ne_nil d ds)]
  simp only [List.append_assoc, List.cons_append, List.nil_append]

/-- The marked part of a pattern and the end of a word after it. -/
theorem reads_marked_part {a : Pattern} {holds : Text → Prop}
    (part : ∀ {h h' : Hit}, Reads a h h' → ∃ w, holds w ∧ h.Passes w h') {h h' : Hit}
    (reads : Reads (.all [.marked a, .boundary]) h h') :
    ∃ w, holds w ∧ h'.mark = some w ∧ h.rest = w ++ h'.rest := by
  simp only [Text.Pattern.reads_all_cons, Text.Pattern.reads_all_nil, Text.Pattern.reads_boundary,
    Text.Pattern.reads_marked] at reads
  obtain ⟨_, ⟨m, inner, rfl⟩, _, ⟨-, rfl⟩, rfl⟩ := reads
  obtain ⟨w, holds, passes⟩ := part inner
  refine ⟨w, holds, ?_, passes.rest⟩
  rw [Hit.text, passes.taken, List.append_nil, List.reverse_reverse]

theorem free_of_boundary {before : Text} {c : Char} {rest : Text} (word : isWordChar c = true)
    (edge : isBoundary before.getLast? (c :: rest) = true) : Free before := by
  unfold isBoundary at edge
  rw [List.head?_cons, Option.any_some, word] at edge
  cases within : before.getLast?.any isWordChar with
  | true => rw [within] at edge; exact nomatch edge
  | false => exact within

/-- Where a pattern finds a version. -/
def MarkedIn (query w : Text) : Prop :=
  StartsWithDigit w ∧ ∃ before marker after, query = before ++ marker ++ (w ++ after) ∧
    IsMarker before marker ∧ (marker = ['@'] → HasDotBetweenDigits w)

theorem afterLetter_find {query : Text} {h : Hit} (found : afterLetter.find query = some h) :
    ∃ w, h.mark = some w ∧ MarkedIn query w := by
  obtain ⟨before, rest, rfl, reads⟩ := Text.Pattern.find_eq_some found
  obtain ⟨_, start, reads⟩ := Text.Pattern.reads_all_cons.mp reads
  obtain ⟨edge, rfl⟩ := Text.Pattern.reads_boundary.mp start
  obtain ⟨_, letter, reads⟩ := Text.Pattern.reads_all_cons.mp reads
  obtain ⟨c, rest, rfl, fits, rfl⟩ := Text.Pattern.reads_one.mp letter
  obtain ⟨w, digit, marked, rfl⟩ := reads_marked_part reads_digits reads
  have isV : c = 'v' ∨ c = 'V' := by simpa using fits
  have word : isWordChar c = true := by rcases isV with rfl | rfl <;> decide
  refine ⟨w, marked, digit, before, [c], h.rest, by simp,
    .letter isV (free_of_boundary word edge), ?_⟩
  rintro ⟨⟩
  exact absurd isV (by decide)

/-- A letter of the word in either case, or the long s. -/
theorem foldCase_of_caseless {c lower : Char} (listed : lower ∈ "version".toList)
    (fits : (c.toLower == lower || (lower == 's' && c.toNat == 0x17F)) = true) :
    foldCase c = lower := by
  unfold foldCase
  simp only [Bool.or_eq_true, Bool.and_eq_true, beq_iff_eq] at fits
  split
  · next long =>
      rcases fits with same | ⟨rfl, -⟩
      · -- The long s has no other small form, and it is no letter of the word.
        obtain rfl : c = Char.ofNat 0x17F := by rw [← long, Char.ofNat_toNat]
        rw [← same] at listed
        exact absurd listed (by decide)
      · rfl
  · next short =>
      rcases fits with same | ⟨-, long⟩
      · exact same
      · exact absurd long short

theorem map_foldCase {word letters : Text}
    (spelled : List.Forall₂ (fun c lower =>
      (c.toLower == lower || (lower == 's' && c.toNat == 0x17F)) = true) word letters)
    (listed : ∀ c ∈ letters, c ∈ "version".toList) : word.map foldCase = letters := by
  induction spelled with
  | nil => rfl
  | cons fits _ ih =>
      obtain ⟨first, rest⟩ := List.forall_mem_cons.mp listed
      rw [List.map_cons, foldCase_of_caseless first fits, ih rest]

theorem eq_of_foldCase_eq_v {c : Char} (h : foldCase c = 'v') : c = 'v' ∨ c = 'V' := by
  unfold foldCase at h
  split at h
  · exact absurd h (by decide)
  · exact Text.eq_of_toLower_eq_v h

/-- The word, blanks and what is read after them. -/
theorem reads_word {before rest : Text} {h : Hit}
    (reads : Reads afterWord (.start before.getLast? rest) h) :
    Free before ∧ ∃ word blanks m, word.map foldCase = "version".toList ∧ blanks ≠ [] ∧
      (∀ c ∈ blanks, isBlank c = true) ∧ rest = word ++ blanks ++ m.rest ∧
      Reads (.all [.marked (.all [digits, .opt dotDigits, .opt dotDigits]), .boundary]) m h := by
  obtain ⟨_, start, reads⟩ := Text.Pattern.reads_all_cons.mp reads
  obtain ⟨edge, rfl⟩ := Text.Pattern.reads_boundary.mp start
  obtain ⟨m, letters, reads⟩ := Text.Pattern.reads_all_cons.mp reads
  obtain ⟨m', gap, reads⟩ := Text.Pattern.reads_all_cons.mp reads
  obtain ⟨word, spelled, first⟩ := Text.Pattern.Reads.spelled letters
  obtain ⟨b, blanks, blank, allBlank, second⟩ := gap.some_one
  have folded : word.map foldCase = "version".toList := map_foldCase spelled fun _ member => member
  obtain ⟨c, more, rfl⟩ : ∃ c more, word = c :: more := by
    cases word with
    | nil => exact absurd folded (by decide)
    | cons c more => exact ⟨c, more, rfl⟩
  have isV : c = 'v' ∨ c = 'V' := by
    have head := congrArg List.head? folded
    have expected : "version".toList.head? = some 'v' := by decide
    rw [List.map_cons, List.head?_cons, expected] at head
    exact eq_of_foldCase_eq_v (Option.some.inj head)
  have letter : isWordChar c = true := by rcases isV with rfl | rfl <;> decide
  have place : rest = c :: (more ++ m.rest) := first.rest
  rw [place] at edge
  refine ⟨free_of_boundary letter edge, c :: more, b :: blanks, m', folded,
    List.cons_ne_nil b blanks, List.forall_mem_cons.mpr ⟨blank, allBlank⟩, ?_, reads⟩
  rw [place, second.rest]
  simp

theorem afterWord_find {query : Text} {h : Hit} (found : afterWord.find query = some h) :
    ∃ w, h.mark = some w ∧ MarkedIn query w := by
  obtain ⟨before, rest, rfl, reads⟩ := Text.Pattern.find_eq_some found
  obtain ⟨free, word, blanks, m, folded, nonempty, blank, rfl, number⟩ := reads_word reads
  obtain ⟨w, digit, marked, last⟩ := reads_marked_part reads_digits number
  refine ⟨w, marked, digit, before, word ++ blanks, h.rest, by simp [last],
    .word folded nonempty blank free, fun single => ?_⟩
  have long := congrArg List.length single
  have letters := congrArg List.length folded
  rw [List.length_map] at letters
  rw [List.length_append, letters] at long
  have seven : "version".toList.length = 7 := rfl
  rw [seven, List.length_singleton] at long
  omega

theorem afterAt_find {query : Text} {h : Hit} (found : afterAt.find query = some h) :
    ∃ w, h.mark = some w ∧ MarkedIn query w := by
  obtain ⟨before, rest, rfl, reads⟩ := Text.Pattern.find_eq_some found
  obtain ⟨_, atSign, reads⟩ := Text.Pattern.reads_all_cons.mp reads
  obtain ⟨c, rest, rfl, fits, rfl⟩ := Text.Pattern.reads_one.mp atSign
  obtain rfl : c = '@' := beq_iff_eq.mp fits
  obtain ⟨w, ⟨digit, dotted⟩, marked, rfl⟩ := reads_marked_part reads_dotted reads
  exact ⟨w, marked, digit, before, ['@'], h.rest, by simp, .atSign, fun _ => dotted⟩

/-- Trailing dots make no difference to where a version is. -/
theorem MarkedIn.trimEndOf {query w : Text} (h : MarkedIn query w) :
    MarkedIn query (trimEndOf (· == '.') w) := by
  obtain ⟨digit, before, marker, after, split, isMarker, dotted⟩ := h
  obtain ⟨dropped, whole⟩ := Text.exists_eq_trimEndOf_append (· == '.') w
  refine ⟨digit.trimEndOf, before, marker, dropped ++ after, ?_, isMarker,
    fun single => (dotted single).trimEndOf⟩
  rw [split, ← List.append_assoc (Text.trimEndOf (· == '.') w), ← whole]

/-- What is read is what one of the patterns reports, without dots at its end. -/
theorem exists_find_of_extract? {query v : Text} (extracted : extract? query = some v) :
    ∃ pattern h w, (pattern = afterLetter ∨ pattern = afterWord ∨ pattern = afterAt) ∧
      pattern.find query = some h ∧ h.mark = some w ∧ v = trimEndOf (· == '.') w := by
  obtain ⟨pattern, listed, made⟩ := List.exists_of_findSome?_eq_some extracted
  obtain ⟨w, matched, rfl⟩ := Option.map_eq_some_iff.mp made
  obtain ⟨h, found, mark⟩ := Option.bind_eq_some_iff.mp matched
  simp only [List.mem_cons, List.not_mem_nil, or_false] at listed
  exact ⟨pattern, h, w, listed, found, mark, rfl⟩

theorem markedIn_of_extract? {query v : Text} (extracted : extract? query = some v) :
    MarkedIn query v := by
  obtain ⟨pattern, h, w, listed, found, mark, rfl⟩ := exists_find_of_extract? extracted
  have inQuery : ∃ w, h.mark = some w ∧ MarkedIn query w := by
    rcases listed with rfl | rfl | rfl
    · exact afterLetter_find found
    · exact afterWord_find found
    · exact afterAt_find found
  obtain ⟨_, same, markedIn⟩ := inQuery
  obtain rfl := Option.some.inj (mark.symm.trans same)
  exact markedIn.trimEndOf

/-- What is read is what the marked part of one of the patterns takes, without dots at its end. -/
theorem exists_taken_of_extract? {holds : Text → Prop}
    (letter : ∀ {h h' : Hit}, Reads (.all [digits, .opt dotDigits, .opt dotDigits, .opt prerelease])
      h h' → ∃ w, holds w ∧ h.Passes w h')
    (word : ∀ {h h' : Hit}, Reads (.all [digits, .opt dotDigits, .opt dotDigits]) h h' →
      ∃ w, holds w ∧ h.Passes w h')
    (sign : ∀ {h h' : Hit}, Reads (.all [digits, dotDigits, .opt dotDigits, .opt prerelease]) h h' →
      ∃ w, holds w ∧ h.Passes w h')
    {query v : Text} (extracted : extract? query = some v) :
    ∃ w, holds w ∧ v = trimEndOf (· == '.') w := by
  obtain ⟨pattern, h, w, listed, found, mark, rfl⟩ := exists_find_of_extract? extracted
  obtain ⟨before, rest, -, reads⟩ := Text.Pattern.find_eq_some found
  have taken : ∃ w, holds w ∧ h.mark = some w := by
    rcases listed with rfl | rfl | rfl
    · obtain ⟨_, -, reads⟩ := Text.Pattern.reads_all_cons.mp reads
      obtain ⟨_, -, reads⟩ := Text.Pattern.reads_all_cons.mp reads
      obtain ⟨w, holds, mark, -⟩ := reads_marked_part letter reads
      exact ⟨w, holds, mark⟩
    · obtain ⟨-, _, _, _, -, -, -, -, reads⟩ := reads_word reads
      obtain ⟨w, holds, mark, -⟩ := reads_marked_part word reads
      exact ⟨w, holds, mark⟩
    · obtain ⟨_, -, reads⟩ := Text.Pattern.reads_all_cons.mp reads
      obtain ⟨w, holds, mark, -⟩ := reads_marked_part sign reads
      exact ⟨w, holds, mark⟩
  obtain ⟨_, holds, same⟩ := taken
  obtain rfl := Option.some.inj (mark.symm.trans same)
  exact ⟨w, holds, rfl⟩

/-- A version begins with a digit and stands directly behind its marker, behind an at sign with a
dot between digits. Where no marker stands directly before a digit there is no version, whatever
other numbers there are. -/
theorem extract?_marked (query : Text) :
    (∀ v, extract? query = some v →
      (∃ d rest, v = d :: rest ∧ isDecimal d = true) ∧
      ∃ before marker after, query = before ++ marker ++ (v ++ after) ∧ IsMarker before marker ∧
        (marker = ['@'] → HasDotBetweenDigits v)) ∧
    ((∀ before marker d after, query = before ++ marker ++ d :: after → isDecimal d = true →
        ¬ IsMarker before marker) →
      extract? query = none) := by
  refine ⟨fun v extracted => markedIn_of_extract? extracted, fun unmarked => ?_⟩
  cases extracted : extract? query with
  | none => rfl
  | some v =>
      obtain ⟨⟨d, rest, rfl, digit⟩, before, marker, after, split, isMarker, -⟩ :=
        markedIn_of_extract? extracted
      exact absurd isMarker (unmarked before marker d (rest ++ after) split digit)

example : extract? "vue version 3.4 on port 3000".toList = some "3.4".toList ∧
    extract? "react@18 on port 3000".toList = none := by
  decide +kernel

end Query.Version
end ApiReference
