import ApiReference.Proofs.Query.Version
import ApiReference.Proofs.Text.Classes
import ApiReference.Proofs.Text.Parts
import ApiReference.Proofs.Text.Preference

/-!
# Versions as packages are published

A version has up to three numbers and, after a hyphen, identifiers of a prerelease. It is read as a
whole behind its marker exactly if none of its identifiers has a hyphen; behind an at sign, none of
them may read as a marked version itself. Main statement: `extract?_published`.
-/

namespace ApiReference.Query.Version
open ApiReference.Text (Pattern Hit isDecimal isBlank isWordChar isBoundary isLetter trimEndOf)
open ApiReference.Text.Pattern (Reads Prefers)

/-- Whether a text is the digits of a number. -/
def IsNumber (n : Text) : Prop := n ≠ [] ∧ ∀ c ∈ n, isDecimal c = true

/-- A version: its numbers and the identifiers of its prerelease. -/
structure Published where
  numbers : List Text
  identifiers : List Text
  nonempty : numbers ≠ []
  few : numbers.length ≤ 3
  numeric : ∀ n ∈ numbers, IsNumber n
  named : ∀ i ∈ identifiers, i ≠ [] ∧ ∀ c ∈ i, isAsciiAlphanumeric c = true ∨ c = '-'

namespace Published

/-- The prerelease with the hyphen before it. -/
def suffix (v : Published) : Text :=
  if v.identifiers.isEmpty then [] else '-' :: Text.join ['.'] v.identifiers

def text (v : Published) : Text := Text.join ['.'] v.numbers ++ v.suffix

/-- Whether no identifier has a hyphen. -/
def Plain (v : Published) : Prop := ∀ i ∈ v.identifiers, '-' ∉ i

end Published

/-- A number comes first, and the word that it belongs to ends with it. -/
def StartsNumber (t : Text) : Prop :=
  ∃ n rest, t = n ++ rest ∧ IsNumber n ∧ rest.head?.any isWordChar = false

/-- The letter v stands between two texts as a marker. -/
structure LetterAt (before rest : Text) : Prop where
  free : Free before
  marked : ∃ c number, rest = c :: number ∧ (c = 'v' ∨ c = 'V') ∧ StartsNumber number

/-- The word "version" stands between two texts as a marker. -/
structure WordAt (before rest : Text) : Prop where
  free : Free before
  marked : ∃ word blanks number, rest = word ++ blanks ++ number ∧
    word.map foldCase = "version".toList ∧ blanks ≠ [] ∧ (∀ c ∈ blanks, isBlank c = true) ∧
    StartsNumber number

/-- An at sign stands first as a marker. -/
def SignAt (rest : Text) : Prop :=
  ∃ n number, rest = '@' :: (n ++ '.' :: number) ∧ IsNumber n ∧ StartsNumber number

/-- A pattern takes no blanks and at most so many hyphens. -/
def Takes (hyphens : Nat) (p : Pattern) : Prop :=
  ∀ h h' : Hit, Reads p h h' →
    ∃ w, (w.count '-' ≤ hyphens ∧ ∀ c ∈ w, isBlank c = false) ∧ h.Passes w h'

section
variable {p : Char → Bool} {a b : Pattern} {j k : Nat}

theorem Takes.one (visible : ∀ c, p c = true → isBlank c = false) : Takes 1 (.one p) := by
  intro h h' reads
  obtain ⟨c, rest, next, fits, rfl⟩ := Text.Pattern.reads_one.1 reads
  exact ⟨[c], ⟨List.count_le_length, List.forall_mem_singleton.2 (visible c fits)⟩, .char next⟩

theorem Takes.other (visible : ∀ c, p c = true → isBlank c = false ∧ c ≠ '-') :
    Takes 0 (.one p) := by
  intro h h' reads
  obtain ⟨c, rest, next, fits, rfl⟩ := Text.Pattern.reads_one.1 reads
  obtain ⟨visible, apart⟩ := visible c fits
  refine ⟨[c], ⟨Nat.le_of_eq ?_, List.forall_mem_singleton.2 visible⟩, .char next⟩
  exact List.count_eq_zero.2 fun member => apart (List.mem_singleton.1 member).symm

theorem Takes.many (visible : ∀ c, p c = true → isBlank c = false ∧ c ≠ '-') :
    Takes 0 (.many (.one p)) := by
  intro h h' reads
  obtain ⟨w, each, passes⟩ := reads.many_one
  refine ⟨w, ⟨Nat.le_of_eq (List.count_eq_zero.2 fun member => ?_), fun c member =>
    (visible c (each c member)).1⟩, passes⟩
  exact (visible '-' (each '-' member)).2 rfl

theorem Takes.seq (first : Takes j a) (second : Takes k b) : Takes (j + k) (.seq a b) := by
  intro h h' reads
  obtain ⟨m, reads, more⟩ := Text.Pattern.reads_seq.1 reads
  obtain ⟨u, ⟨few, visible⟩, passes⟩ := first _ _ reads
  obtain ⟨v, ⟨few', visible'⟩, passes'⟩ := second _ _ more
  refine ⟨u ++ v, ⟨?_, List.forall_mem_append.2 ⟨visible, visible'⟩⟩, passes.trans passes'⟩
  rw [List.count_append]
  exact Nat.add_le_add few few'

theorem Takes.opt (takes : Takes k a) : Takes k (.opt a) := by
  intro h h' reads
  cases reads with
  | preferred reads => exact takes _ _ reads
  | other reads =>
      cases reads
      exact ⟨[], ⟨Nat.zero_le _, nofun⟩, .refl _⟩

theorem takes_nothing (k : Nat) : Takes k (.all []) := by
  intro h h' reads
  rw [Text.Pattern.reads_all_nil.1 reads]
  exact ⟨[], ⟨Nat.zero_le _, nofun⟩, .refl _⟩

end

theorem visible_of_isDecimal (c : Char) (digit : isDecimal c = true) :
    isBlank c = false ∧ c ≠ '-' := by
  refine ⟨Text.not_isBlank_of_isWordChar (Text.isWordChar_of_isDecimal digit), ?_⟩
  rintro rfl
  exact absurd digit (by decide)

theorem takes_digits : Takes 0 digits :=
  (Takes.other visible_of_isDecimal).seq (.many visible_of_isDecimal)

theorem takes_dotDigits : Takes 0 dotDigits := by
  refine Takes.seq (j := 0) (.other fun c dot => ?_) takes_digits
  obtain rfl : c = '.' := beq_iff_eq.1 dot
  decide

theorem takes_prerelease : Takes 1 prerelease := by
  have alphanumeric (c : Char) (fits : isAsciiAlphanumeric c = true) :
      isBlank c = false ∧ c ≠ '-' := by
    refine ⟨Text.not_isBlank_of_isAlphanum fits, ?_⟩
    rintro rfl
    exact absurd fits (by decide)
  refine Takes.seq (k := 0) (.one fun c hyphen => ?_)
    (Takes.seq (j := 0) (.other alphanumeric) (Takes.seq (j := 0) (.many fun c fits => ?_)
      (takes_nothing 0)))
  · obtain rfl : c = '-' := beq_iff_eq.1 hyphen
    decide
  · rcases Bool.or_eq_true_iff.1 fits with fits | dot
    · exact alphanumeric c fits
    · obtain rfl : c = '.' := beq_iff_eq.1 dot
      decide

section
variable {a : Pattern} {ps : List Pattern} {h h' : Hit}

/-- A pattern takes nothing or goes on where a word ends. -/
def Skips (p : Pattern) : Prop :=
  ∀ h h' : Hit, Reads p h h' → h' = h ∨ h.rest.head?.any isWordChar = false

theorem skips_opt {p : Char → Bool} {a : Pattern} (outside : ∀ c, p c = true → isWordChar c = false) :
    Skips (.opt (.seq (.one p) a)) := by
  intro h h' reads
  cases reads with
  | preferred reads =>
      obtain ⟨m, first, -⟩ := Text.Pattern.reads_seq.1 reads
      obtain ⟨c, rest, next, fits, -⟩ := Text.Pattern.reads_one.1 first
      rw [next]
      exact .inr (outside c fits)
  | other reads =>
      cases reads
      exact .inl rfl

theorem skips_opt_dotDigits : Skips (.opt dotDigits) :=
  skips_opt fun c dot => by
    obtain rfl : c = '.' := beq_iff_eq.1 dot
    decide

theorem skips_opt_prerelease : Skips (.opt prerelease) :=
  skips_opt fun c hyphen => by
    obtain rfl : c = '-' := beq_iff_eq.1 hyphen
    decide

theorem skips_all (each : ∀ p ∈ ps, Skips p) : Skips (.all ps) := by
  induction ps with
  | nil =>
      intro h h' reads
      exact .inl (Text.Pattern.reads_all_nil.1 reads)
  | cons p ps ih =>
      obtain ⟨first, rest⟩ := List.forall_mem_cons.1 each
      intro h h' reads
      obtain ⟨m, reads, more⟩ := Text.Pattern.reads_all_cons.1 reads
      rcases first _ _ reads with rfl | ended
      · exact ih rest _ _ more
      · exact .inr ended

/-- Digits, with parts after them that begin outside words, are a number that ends a word. -/
theorem startsNumber_of_reads (each : ∀ p ∈ ps, Skips p) (reads : Reads (.all (digits :: ps)) h h')
    (edge : isBoundary h'.before h'.rest = true) : StartsNumber h.rest := by
  obtain ⟨m, number, more⟩ := Text.Pattern.reads_all_cons.1 reads
  obtain ⟨c, w, digit, each', passes⟩ := number.some_one
  have digits : ∀ d ∈ c :: w, isDecimal d = true := List.forall_mem_cons.2 ⟨digit, each'⟩
  refine ⟨c :: w, m.rest, passes.rest, ⟨List.cons_ne_nil c w, digits⟩, ?_⟩
  rcases skips_all each _ _ more with rfl | ended
  · obtain ⟨d, last⟩ : ∃ d, (c :: w).getLast? = some d :=
      ⟨_, List.getLast?_eq_some_getLast (List.cons_ne_nil c w)⟩
    have word := Text.isWordChar_of_isDecimal (digits d (List.mem_of_getLast? last))
    rw [isBoundary, passes.before, last, Option.some_or, Option.any_some, word] at edge
    simpa using edge
  · exact ended

/-- The marked part of a pattern that matches at a boundary. -/
theorem reads_marked_boundary (reads : Reads (.all [.marked a, .boundary]) h h') :
    ∃ m, Reads a { h with taken := [] } m ∧ isBoundary m.before m.rest = true := by
  simp only [Text.Pattern.reads_all_cons, Text.Pattern.reads_all_nil, Text.Pattern.reads_boundary,
    Text.Pattern.reads_marked] at reads
  obtain ⟨_, ⟨m, inner, rfl⟩, _, ⟨edge, rfl⟩, rfl⟩ := reads
  exact ⟨m, inner, edge⟩

theorem startsNumber_of_marked (each : ∀ p ∈ ps, Skips p)
    (reads : Reads (.all [.marked (.all (digits :: ps)), .boundary]) h h') :
    StartsNumber h.rest := by
  obtain ⟨m, inner, edge⟩ := reads_marked_boundary reads
  have starts := startsNumber_of_reads each inner edge
  exact starts

/-- After a number and a dot there is another number. -/
theorem startsNumber_of_dotted (each : ∀ p ∈ ps, Skips p)
    (reads : Reads (.all [.marked (.all (digits :: dotDigits :: ps)), .boundary]) h h') :
    ∃ n number, h.rest = n ++ '.' :: number ∧ IsNumber n ∧ StartsNumber number := by
  obtain ⟨m, inner, edge⟩ := reads_marked_boundary reads
  obtain ⟨m', number, more⟩ := Text.Pattern.reads_all_cons.1 inner
  obtain ⟨c, w, digit, each', passes⟩ := number.some_one
  obtain ⟨m'', dotted, more⟩ := Text.Pattern.reads_all_cons.1 more
  obtain ⟨m₁, dot, fraction⟩ := Text.Pattern.reads_seq.1 dotted
  obtain ⟨d, rest, next, isDot, rfl⟩ := Text.Pattern.reads_one.1 dot
  obtain rfl : d = '.' := beq_iff_eq.1 isDot
  refine ⟨c :: w, rest, ?_, ⟨List.cons_ne_nil c w, List.forall_mem_cons.2 ⟨digit, each'⟩⟩, ?_⟩
  · rw [← next]
    exact passes.rest
  · exact startsNumber_of_reads each (Text.Pattern.reads_all_cons.2 ⟨m'', fraction, more⟩) edge

end

/-- What a pattern takes as a version: at most one hyphen and no blanks. -/
def Modest (w : Text) : Prop := w.count '-' ≤ 1 ∧ ∀ c ∈ w, isBlank c = false

theorem takes_afterLetter : Takes 1 (.all [digits, .opt dotDigits, .opt dotDigits, .opt prerelease]) :=
  takes_digits.seq (takes_dotDigits.opt.seq (takes_dotDigits.opt.seq
    (takes_prerelease.opt.seq (takes_nothing 0))))

theorem takes_afterWord : Takes 1 (.all [digits, .opt dotDigits, .opt dotDigits]) :=
  takes_digits.seq (takes_dotDigits.opt.seq (takes_dotDigits.opt.seq (takes_nothing 1)))

theorem takes_afterAt : Takes 1 (.all [digits, dotDigits, .opt dotDigits, .opt prerelease]) :=
  takes_digits.seq (takes_dotDigits.seq (takes_dotDigits.opt.seq
    (takes_prerelease.opt.seq (takes_nothing 0))))

section
variable {before rest : Text} {h : Hit}

theorem reads_afterLetter (reads : Reads afterLetter (.start before.getLast? rest) h) :
    LetterAt before rest ∧ ∃ c w more, rest = c :: w ++ more ∧ isBlank c = false ∧
      h.mark = some w ∧ ∀ d ∈ w, isBlank d = false := by
  obtain ⟨_, start, reads⟩ := Text.Pattern.reads_all_cons.1 reads
  obtain ⟨edge, rfl⟩ := Text.Pattern.reads_boundary.1 start
  obtain ⟨_, letter, reads⟩ := Text.Pattern.reads_all_cons.1 reads
  obtain ⟨c, number, rfl, fits, rfl⟩ := Text.Pattern.reads_one.1 letter
  have isV : c = 'v' ∨ c = 'V' := by simpa using fits
  have word : isWordChar c = true := by rcases isV with rfl | rfl <;> decide
  obtain ⟨w, ⟨-, visible⟩, marked, split⟩ := reads_marked_part (takes_afterLetter _ _) reads
  refine ⟨⟨free_of_boundary word edge, c, number, rfl, isV, ?_⟩, c, w, h.rest, ?_,
    Text.not_isBlank_of_isWordChar word, marked, visible⟩
  · refine startsNumber_of_marked ?_ reads
    simp only [List.forall_mem_cons]
    exact ⟨skips_opt_dotDigits, skips_opt_dotDigits, skips_opt_prerelease, nofun⟩
  · rw [show number = w ++ h.rest from split, List.cons_append]

theorem wordAt_of_reads (reads : Reads afterWord (.start before.getLast? rest) h) :
    WordAt before rest := by
  obtain ⟨free, word, blanks, m, folded, nonempty, blank, rfl, number⟩ := reads_word reads
  refine ⟨free, word, blanks, m.rest, rfl, folded, nonempty, blank, startsNumber_of_marked ?_ number⟩
  simp only [List.forall_mem_cons]
  exact ⟨skips_opt_dotDigits, skips_opt_dotDigits, nofun⟩

theorem signAt_of_reads (reads : Reads afterAt (.start before.getLast? rest) h) : SignAt rest := by
  obtain ⟨_, sign, reads⟩ := Text.Pattern.reads_all_cons.1 reads
  obtain ⟨c, number, rfl, fits, rfl⟩ := Text.Pattern.reads_one.1 sign
  obtain rfl : c = '@' := beq_iff_eq.1 fits
  obtain ⟨n, number, split, isNumber, starts⟩ := startsNumber_of_dotted (by
    simp only [List.forall_mem_cons]
    exact ⟨skips_opt_dotDigits, skips_opt_prerelease, nofun⟩) reads
  exact ⟨n, number, congrArg ('@' :: ·) split, isNumber, starts⟩

end

/-- Numbers with a dot before each. -/
def dotted (ns : List Text) : Text := ns.flatMap ('.' :: ·)

theorem join_cons_eq (n : Text) (ns : List Text) : Text.join ['.'] (n :: ns) = n ++ dotted ns := by
  induction ns generalizing n with
  | nil => exact (List.append_nil n).symm
  | cons m ns ih =>
      have split : Text.join ['.'] (n :: m :: ns) = n ++ ('.' :: Text.join ['.'] (m :: ns)) :=
        List.append_assoc n ['.'] _
      rw [split, ih]
      rfl

/-- The last character of texts put together is the last of one of them. -/
theorem exists_getLast?_join {P : Char → Prop} {ts : List Text} (some : ts ≠ [])
    (each : ∀ t ∈ ts, t ≠ [] ∧ ∀ c ∈ t, P c) (sep : Text) :
    ∃ c, (Text.join sep ts).getLast? = .some c ∧ P c := by
  induction ts with
  | nil => exact absurd rfl some
  | cons t ts ih =>
      obtain ⟨first, rest⟩ := List.forall_mem_cons.1 each
      cases ts with
      | nil =>
          have last := List.getLast?_eq_some_getLast first.1
          exact ⟨_, last, first.2 _ (List.mem_of_getLast? last)⟩
      | cons u ts =>
          obtain ⟨c, last, holds⟩ := ih (List.cons_ne_nil u ts) rest
          refine ⟨c, ?_, holds⟩
          have split : Text.join sep (t :: u :: ts) = t ++ sep ++ Text.join sep (u :: ts) := rfl
          rw [split, List.getLast?_append, last, Option.some_or]

section
variable {h : Hit} {n rest : Text}

theorem prefers_digits (next : h.rest = n ++ rest) (number : IsNumber n)
    (ends : ∀ c ∈ rest.head?, isDecimal c = false) : Prefers digits h (h.over n rest) :=
  Text.Pattern.prefers_some_one next number.1 number.2 ends

theorem prefers_dotDigits (next : h.rest = '.' :: (n ++ rest)) (number : IsNumber n)
    (ends : ∀ c ∈ rest.head?, isDecimal c = false) :
    Prefers dotDigits h (h.over ('.' :: n) rest) := by
  have more := prefers_digits (h := h.over ['.'] (n ++ rest)) rfl number ends
  rw [h.over_over] at more
  exact (Text.Pattern.prefers_one next rfl).seq more

theorem ends_dotDigits (other : ∀ c ∈ h.rest.head?, c ≠ '.') : Pattern.ends dotDigits h = [] :=
  Text.Pattern.ends_seq_eq_nil (Text.Pattern.ends_one_eq_nil fun c first =>
    beq_false_of_ne (other c first))

theorem prefers_prerelease {c : Char} {p : Text} (next : h.rest = '-' :: c :: (p ++ rest))
    (first : isAsciiAlphanumeric c = true)
    (among : ∀ d ∈ p, (isAsciiAlphanumeric d || d == '.') = true)
    (ended : ∀ d ∈ rest.head?, (isAsciiAlphanumeric d || d == '.') = false) :
    Prefers prerelease h (h.over ('-' :: c :: p) rest) := by
  have hyphen := Text.Pattern.prefers_one (p := (· == '-')) next rfl
  have letter := Text.Pattern.prefers_one (h := h.over ['-'] (c :: (p ++ rest))) rfl first
  have more := Text.Pattern.prefers_many_one (h := (h.over ['-'] (c :: (p ++ rest))).over [c]
    (p ++ rest)) rfl among ended
  have last := more.seq (Text.Pattern.prefers_empty _)
  rw [h.over_over] at letter last
  rw [h.over_over] at last
  exact hyphen.seq (letter.seq last)

/-- As many numbers as there are, each with a dot before it. -/
theorem prefers_dotted {k : Nat} {ns : List Text} (few : ns.length ≤ k)
    (numbers : ∀ n ∈ ns, IsNumber n) (next : h.rest = dotted ns ++ rest)
    (ends : ∀ c ∈ rest.head?, isDecimal c = false ∧ c ≠ '.') {q : Pattern} {h' : Hit}
    (later : Prefers q (h.over (dotted ns) rest) h') :
    Prefers ((List.replicate k (.opt dotDigits)).foldr .seq q) h h' := by
  induction k generalizing h ns with
  | zero =>
      obtain rfl : ns = [] := List.length_eq_zero_iff.1 (Nat.le_zero.1 few)
      have stays : h.over [] rest = h := by rw [← h.over_nil, next]; rfl
      rwa [← stays]
  | succ k ih =>
      rw [List.replicate_succ, List.foldr_cons]
      cases ns with
      | nil =>
          have none : Pattern.ends dotDigits h = [] :=
            ends_dotDigits fun c first => (ends c (by rwa [next] at first)).2
          have nothing : ([] : List Text).length ≤ k := Nat.zero_le k
          exact (Text.Pattern.prefers_opt_none none).seq (ih nothing numbers next later)
      | cons n ns =>
          obtain ⟨number, numbers⟩ := List.forall_mem_cons.1 numbers
          have next : h.rest = '.' :: (n ++ (dotted ns ++ rest)) := by
            rw [next, dotted, List.flatMap_cons, List.cons_append, List.cons_append,
              List.append_assoc]
            rfl
          have ended : ∀ c ∈ (dotted ns ++ rest).head?, isDecimal c = false := by
            cases ns with
            | nil => exact fun c first => (ends c first).1
            | cons =>
                rintro c ⟨⟩
                decide
          refine (Text.Pattern.prefers_opt (prefers_dotDigits next number ended)).seq
            (ih (Nat.le_of_succ_le_succ few) numbers rfl ?_)
          rw [h.over_over]
          exact later

end

/-- The end of a text or a blank, which no part of a version goes on with. -/
structure Apart (after : Text) : Prop where
  blank : ∀ c ∈ after.head?, isBlank c = true

namespace Apart
variable {after : Text} (apart : Apart after)
include apart

theorem ne {c d : Char} (first : c ∈ after.head?) (visible : isBlank d = false) : c ≠ d := by
  rintro rfl
  rw [apart.blank c first] at visible
  cases visible

theorem not_isWordChar {c : Char} (first : c ∈ after.head?) : isWordChar c = false :=
  Text.not_isWordChar_of_isBlank (apart.blank c first)

theorem any_isWordChar : after.head?.any isWordChar = false := by
  cases first : after.head? with
  | none => rfl
  | some c => exact apart.not_isWordChar first

theorem not_isDecimal {c : Char} (first : c ∈ after.head?) : isDecimal c = false := by
  cases digit : isDecimal c with
  | false => rfl
  | true =>
      have word := apart.not_isWordChar first
      rw [Text.isWordChar_of_isDecimal digit] at word
      cases word

theorem not_isAsciiAlphanumeric {c : Char} (first : c ∈ after.head?) :
    isAsciiAlphanumeric c = false := by
  cases fits : isAsciiAlphanumeric c with
  | false => rfl
  | true =>
      have word := apart.not_isWordChar first
      rw [Text.isWordChar_of_isAlphanum fits] at word
      cases word

end Apart

namespace Published
variable {v : Published} {after : Text}

theorem Plain.alphanumeric (plain : v.Plain) :
    ∀ i ∈ v.identifiers, i ≠ [] ∧ ∀ c ∈ i, isAsciiAlphanumeric c = true := by
  intro i member
  refine ⟨(v.named i member).1, fun c inside => ((v.named i member).2 c inside).resolve_right ?_⟩
  rintro rfl
  exact plain i member inside

/-- A version ends with a letter or digit. -/
theorem Plain.exists_last (plain : v.Plain) :
    ∃ c, v.text.getLast? = some c ∧ isWordChar c = true := by
  rw [text, suffix]
  split
  · obtain ⟨c, last, digit⟩ := exists_getLast?_join v.nonempty v.numeric ['.']
    rw [List.append_nil]
    exact ⟨c, last, Text.isWordChar_of_isDecimal digit⟩
  · next more =>
      obtain ⟨c, last, fits⟩ := exists_getLast?_join
        (fun none => more (List.isEmpty_iff.2 none)) plain.alphanumeric ['.']
      refine ⟨c, ?_, Text.isWordChar_of_isAlphanum fits⟩
      rw [List.getLast?_append, List.getLast?_cons, last]
      rfl

theorem Plain.trimmed (plain : v.Plain) : trimEndOf (· == '.') v.text = v.text := by
  obtain ⟨c, last, word⟩ := plain.exists_last
  refine Text.trimEndOf_of_getLast? last ?_
  rw [beq_eq_false_iff_ne]
  rintro rfl
  exact absurd word (by decide)

/-- The prerelease is a hyphen, a letter or digit and more of them and dots. -/
theorem Plain.suffix_eq (plain : v.Plain) (some : v.identifiers ≠ []) :
    ∃ c p, v.suffix = '-' :: c :: p ∧ isAsciiAlphanumeric c = true ∧
      ∀ d ∈ p, (isAsciiAlphanumeric d || d == '.') = true := by
  obtain ⟨i, more, identifiers⟩ := List.exists_cons_of_ne_nil some
  have dots : ∀ d ∈ ['.'], (isAsciiAlphanumeric d || d == '.') = true := by decide
  have among := (Text.forall_mem_join dots v.identifiers).2 fun t member d inside => by
    rw [(plain.alphanumeric t member).2 d inside, Bool.true_or]
  have whole : v.suffix = '-' :: Text.join ['.'] v.identifiers := by
    rw [suffix, if_neg fun none => some (List.isEmpty_iff.1 none)]
  have member : i ∈ v.identifiers := by
    rw [identifiers]
    exact List.mem_cons_self
  obtain ⟨nonempty, first⟩ := plain.alphanumeric i member
  obtain ⟨c, i, rfl⟩ := List.exists_cons_of_ne_nil nonempty
  rw [identifiers, join_cons_eq, List.cons_append] at whole among
  exact ⟨c, _, whole, first c List.mem_cons_self, (List.forall_mem_cons.1 among).2⟩

theorem Plain.prefers_suffix (plain : v.Plain) (apart : Apart after) {h : Hit}
    (next : h.rest = v.suffix ++ after) :
    Prefers (.all [.opt prerelease]) h (h.over v.suffix after) := by
  refine Prefers.seq ?_ (Text.Pattern.prefers_empty _)
  cases identifiers : v.identifiers with
  | nil =>
      have empty : v.suffix = [] := by rw [suffix, identifiers]; rfl
      rw [empty] at next ⊢
      have stays : h.over [] after = h := by rw [← h.over_nil, next]; rfl
      rw [stays]
      refine Text.Pattern.prefers_opt_none (Text.Pattern.ends_seq_eq_nil
        (Text.Pattern.ends_one_eq_nil fun c first => beq_false_of_ne ?_))
      rw [next] at first
      exact apart.ne first (by decide)
  | cons i more =>
      have some : v.identifiers ≠ [] := by
        rw [identifiers]
        exact List.cons_ne_nil i more
      obtain ⟨c, p, whole, first, among⟩ := plain.suffix_eq some
      rw [whole] at next ⊢
      refine Text.Pattern.prefers_opt (prefers_prerelease next first among fun d ahead => ?_)
      rw [apart.not_isAsciiAlphanumeric ahead, Bool.false_or]
      exact beq_false_of_ne (apart.ne ahead (by decide))

theorem head?_suffix (v : Published) (apart : Apart after) :
    ∀ c ∈ (v.suffix ++ after).head?, isDecimal c = false ∧ c ≠ '.' := by
  intro c first
  rw [suffix] at first
  split at first
  · exact ⟨apart.not_isDecimal first, apart.ne first (by decide)⟩
  · obtain rfl : '-' = c := Option.some.inj first
    decide

/-- Numbers with dots before them and the prerelease. -/
theorem Plain.prefers_dotted (plain : v.Plain) (apart : Apart after) {k : Nat} {ns : List Text}
    (few : ns.length ≤ k) (numbers : ∀ n ∈ ns, IsNumber n) {h : Hit}
    (next : h.rest = dotted ns ++ (v.suffix ++ after)) :
    Prefers ((List.replicate k (.opt dotDigits)).foldr .seq (.all [.opt prerelease])) h
      (h.over (dotted ns ++ v.suffix) after) := by
  have last := plain.prefers_suffix apart (h := h.over (dotted ns) (v.suffix ++ after)) rfl
  rw [h.over_over] at last
  exact Version.prefers_dotted few numbers next (v.head?_suffix apart) last

theorem head?_dotted (v : Published) (apart : Apart after) (ns : List Text) :
    ∀ c ∈ (dotted ns ++ (v.suffix ++ after)).head?, isDecimal c = false := by
  cases ns with
  | nil => exact fun c first => (v.head?_suffix apart c first).1
  | cons =>
      rintro c ⟨⟩
      decide

theorem Plain.prefers_text (plain : v.Plain) (apart : Apart after) {h : Hit}
    (next : h.rest = v.text ++ after) :
    Prefers (.all [digits, .opt dotDigits, .opt dotDigits, .opt prerelease]) h
      (h.over v.text after) := by
  obtain ⟨n, ns, numbers⟩ := List.exists_cons_of_ne_nil v.nonempty
  have few := v.few
  have numeric := v.numeric
  rw [numbers] at few numeric
  obtain ⟨first, others⟩ := List.forall_mem_cons.1 numeric
  have whole : v.text = n ++ (dotted ns ++ v.suffix) := by
    rw [text, numbers, join_cons_eq, List.append_assoc]
  rw [whole] at next ⊢
  rw [List.append_assoc, List.append_assoc] at next
  have more := plain.prefers_dotted apart (Nat.le_of_succ_le_succ few) others
    (h := h.over n (dotted ns ++ (v.suffix ++ after))) rfl
  rw [h.over_over] at more
  exact (prefers_digits next first (v.head?_dotted apart ns)).seq more

theorem Plain.prefers_dotted_text (plain : v.Plain) (apart : Apart after)
    (minor : 2 ≤ v.numbers.length) {h : Hit} (next : h.rest = v.text ++ after) :
    Prefers (.all [digits, dotDigits, .opt dotDigits, .opt prerelease]) h
      (h.over v.text after) := by
  obtain ⟨n, m, ns, numbers⟩ : ∃ n m ns, v.numbers = n :: m :: ns := by
    cases numbers : v.numbers with
    | nil => exact absurd numbers v.nonempty
    | cons n ns =>
        cases ns with
        | nil =>
            rw [numbers, List.length_singleton] at minor
            omega
        | cons m ns => exact ⟨n, m, ns, rfl⟩
  have few := v.few
  have numeric := v.numeric
  rw [numbers] at few numeric
  obtain ⟨first, others⟩ := List.forall_mem_cons.1 numeric
  obtain ⟨second, others⟩ := List.forall_mem_cons.1 others
  have whole : v.text = n ++ (('.' :: m) ++ (dotted ns ++ v.suffix)) := by
    rw [text, numbers, join_cons_eq, List.append_assoc, dotted, List.flatMap_cons,
      List.append_assoc]
    rfl
  rw [whole] at next ⊢
  rw [List.append_assoc, List.append_assoc, List.append_assoc] at next
  let rest := dotted ns ++ (v.suffix ++ after)
  have more := plain.prefers_dotted apart
    (Nat.le_of_succ_le_succ (Nat.le_of_succ_le_succ few)) others
    (h := (h.over n ('.' :: m ++ rest)).over ('.' :: m) rest) rfl
  have minor := prefers_dotDigits (h := h.over n ('.' :: m ++ rest)) rfl second
    (v.head?_dotted apart ns)
  rw [← h.over_over n _ ('.' :: m ++ rest), ← Hit.over_over _ ('.' :: m) _ rest]
  refine (prefers_digits next first ?_).seq (minor.seq more)
  rintro c ⟨⟩
  decide

end Published

/-- A part that is taken as a whole up to the end of a word is the mark. -/
theorem prefers_marked_boundary {a : Pattern} {h : Hit} {w rest : Text}
    (prefers : Prefers a { h with taken := [] } (Hit.over { h with taken := [] } w rest))
    (edge : isBoundary (w.getLast?.or h.before) rest = true) :
    ∃ h', Prefers (.all [.marked a, .boundary]) h h' ∧ h'.mark = some w := by
  refine ⟨_, prefers.marked.seq ((Text.Pattern.prefers_boundary ?_).seq
    (Text.Pattern.prefers_empty _)), ?_⟩
  · exact edge
  · simp only [Hit.text, Hit.over, List.append_nil, List.reverse_reverse]

theorem isBoundary_of_word {before : Option Char} {rest : Text} {c : Char} (last : before = some c)
    (word : isWordChar c = true) (ends : rest.head?.any isWordChar = false) :
    isBoundary before rest = true := by
  rw [isBoundary, last, Option.any_some, word, ends]
  rfl

/-- The number of hyphens of what is read. -/
theorem modest_of_extract? {query w : Text} (extracted : extract? query = some w) : Modest w := by
  have taken : ∃ whole, Modest whole ∧ w = trimEndOf (· == '.') whole := exists_taken_of_extract?
    (takes_afterLetter _ _) (takes_afterWord _ _) (takes_afterAt _ _) extracted
  obtain ⟨whole, ⟨few, visible⟩, rfl⟩ := taken
  obtain ⟨dropped, split⟩ := Text.exists_eq_trimEndOf_append (· == '.') whole
  rw [split] at few visible
  rw [List.count_append] at few
  exact ⟨Nat.le_of_add_right_le few, (List.forall_mem_append.1 visible).1⟩

theorem Published.plain_of_modest {v : Published} (modest : Modest v.text) : v.Plain := by
  intro i member hyphen
  have inside : '-' ∈ Text.join ['.'] v.identifiers := by
    by_contra absent
    have apart := (Text.forall_mem_join (P := (· ≠ '-')) (by decide : ∀ c ∈ ['.'], c ≠ '-')
      v.identifiers).1 fun c inside same => absent (same ▸ inside)
    exact apart i member '-' hyphen rfl
  have two : 2 ≤ v.suffix.count '-' := by
    rw [Published.suffix, if_neg fun none => by
      rw [List.isEmpty_iff.1 none] at member
      cases member]
    rw [List.count_cons_self]
    exact Nat.succ_le_succ (List.count_pos_iff.2 inside)
  have few := modest.1
  rw [Published.text, List.count_append] at few
  omega

theorem startsNumber_append {t after : Text} (apart : Apart after) :
    StartsNumber (t ++ after) ↔ StartsNumber t := by
  constructor
  · rintro ⟨n, rest, split, number, ends⟩
    rcases List.append_eq_append_iff.1 split with ⟨x, rfl, rfl⟩ | ⟨x, rfl, rfl⟩
    · cases x with
      | nil => exact ⟨t, [], by simp, by simpa using number, rfl⟩
      | cons c x =>
          have digit := number.2 c (List.mem_append_right _ List.mem_cons_self)
          rw [apart.not_isDecimal rfl] at digit
          cases digit
    · refine ⟨n, x, rfl, number, ?_⟩
      cases x with
      | nil => rfl
      | cons c x => exact ends
  · rintro ⟨n, rest, rfl, number, ends⟩
    refine ⟨n, rest ++ after, List.append_assoc .., number, ?_⟩
    cases rest with
    | nil => exact apart.any_isWordChar
    | cons c rest => exact ends

theorem letterAt_inside {before a b after : Text} (apart : Apart after) :
    LetterAt (before ++ '@' :: a) (b ++ after) ↔ LetterAt a b := by
  have free : Free (before ++ '@' :: a) ↔ Free a := by
    unfold Free
    rw [List.getLast?_append, List.getLast?_cons]
    cases a.getLast? with
    | none => exact iff_of_true (show isWordChar '@' = false by decide) rfl
    | some c => rfl
  constructor
  · rintro ⟨before, c, number, split, isV, starts⟩
    refine ⟨free.1 before, ?_⟩
    cases b with
    | nil =>
        have first : c ∈ after.head? := by
          rw [List.nil_append] at split
          rw [split]
          rfl
        rcases isV with rfl | rfl <;> exact absurd (apart.blank _ first) (by decide)
    | cons d b =>
        cases split
        exact ⟨c, b, rfl, isV, (startsNumber_append apart).1 starts⟩
  · rintro ⟨before, c, number, rfl, isV, starts⟩
    exact ⟨free.2 before, c, number ++ after, rfl, isV, (startsNumber_append apart).2 starts⟩

theorem exists_reads_of_letterAt {before rest : Text} (letter : LetterAt before rest) :
    ∃ h, Reads afterLetter (.start before.getLast? rest) h := by
  obtain ⟨free, c, number, rfl, isV, n, rest, rfl, isNumber, ends⟩ := letter
  have word : isWordChar c = true := by rcases isV with rfl | rfl <;> decide
  have fits : (c == 'v' || c == 'V') = true := by rcases isV with rfl | rfl <;> rfl
  have start : isBoundary before.getLast? (c :: (n ++ rest)) = true := by
    rw [isBoundary, List.head?_cons, Option.any_some, word, show _ = false from free]
    rfl
  have ended : ∀ d ∈ rest.head?, isDecimal d = false := by
    intro d first
    cases digit : isDecimal d with
    | false => rfl
    | true =>
        rw [first, Option.any_some, Text.isWordChar_of_isDecimal digit] at ends
        cases ends
  have first := Text.Pattern.prefers_one (p := fun c => c == 'v' || c == 'V')
    (h := .start before.getLast? (c :: (n ++ rest))) rfl fits
  have digits := prefers_digits
    (h := { Hit.over (.start before.getLast? (c :: (n ++ rest))) [c] (n ++ rest) with taken := [] })
    rfl isNumber ended
  have last : n.getLast? = some (n.getLast isNumber.1) := List.getLast?_eq_some_getLast isNumber.1
  have stop : isBoundary (n.getLast?.or (some c)) rest = true :=
    isBoundary_of_word (by rw [last]; rfl)
      (Text.isWordChar_of_isDecimal (isNumber.2 _ (List.getLast_mem isNumber.1))) ends
  exact ⟨_, .seq (.boundary start) (.seq first.reads (.seq (.marked (.seq digits.reads
    (.seq (.other .empty) (.seq (.other .empty) (.seq (.other .empty) .empty)))))
    (.seq (.boundary stop) .empty)))⟩

section
variable {p : Pattern} (At : Text → Text → Prop)
  (sound : ∀ {before rest : Text} {h : Hit}, Reads p (.start before.getLast? rest) h → At before rest)
include sound

theorem find_of_earliest {before rest : Text} {h : Hit}
    (earliest : ∀ a b, before ++ rest = a ++ b → At a b → before.length ≤ a.length)
    (here : Prefers p (.start before.getLast? rest) h) : p.find (before ++ rest) = some h := by
  refine Text.Pattern.find_of_prefers (fun a c b split => ?_) here
  refine List.eq_nil_iff_forall_not_mem.2 fun h member => ?_
  have late := earliest a (c :: b ++ rest) (by rw [split, List.append_assoc])
    (sound (.of_mem_ends member))
  rw [split, List.length_append, List.length_cons] at late
  omega

theorem find_eq_none {query : Text} (nowhere : ∀ a b, query = a ++ b → ¬ At a b) :
    p.find query = none := by
  cases found : p.find query with
  | none => rfl
  | some h =>
      obtain ⟨a, b, split, reads⟩ := Text.Pattern.find_eq_some found
      exact absurd (sound reads) (nowhere a b split)

end

namespace Published
variable {v : Published} {before after : Text}

theorem Plain.exists_prefers_letter (plain : v.Plain) (apart : Apart after) (free : Free before) :
    ∃ h, Prefers afterLetter (.start before.getLast? ('v' :: (v.text ++ after))) h ∧
      h.mark = some v.text := by
  obtain ⟨c, last, word⟩ := plain.exists_last
  let h : Hit := Hit.over (.start before.getLast? ('v' :: (v.text ++ after))) ['v'] (v.text ++ after)
  have start : isBoundary before.getLast? ('v' :: (v.text ++ after)) = true := by
    rw [isBoundary, List.head?_cons, Option.any_some, show _ = false from free]
    decide
  obtain ⟨h', more, mark⟩ := prefers_marked_boundary (h := h)
    (plain.prefers_text apart (h := { h with taken := [] }) rfl)
    (isBoundary_of_word (by rw [last]; rfl) word apart.any_isWordChar)
  exact ⟨h', (Text.Pattern.prefers_boundary start).seq
    ((Text.Pattern.prefers_one rfl rfl).seq more), mark⟩

theorem Plain.exists_prefers_sign (plain : v.Plain) (before : Text) (apart : Apart after)
    (minor : 2 ≤ v.numbers.length) :
    ∃ h, Prefers afterAt (.start before.getLast? ('@' :: (v.text ++ after))) h ∧
      h.mark = some v.text := by
  obtain ⟨c, last, word⟩ := plain.exists_last
  let h : Hit := Hit.over (.start before.getLast? ('@' :: (v.text ++ after))) ['@'] (v.text ++ after)
  obtain ⟨h', more, mark⟩ := prefers_marked_boundary (h := h)
    (plain.prefers_dotted_text apart minor (h := { h with taken := [] }) rfl)
    (isBoundary_of_word (by rw [last]; rfl) word apart.any_isWordChar)
  exact ⟨h', (Text.Pattern.prefers_one rfl rfl).seq more, mark⟩

end Published

theorem extract?_of_letter {query : Text} {h : Hit} (found : afterLetter.find query = some h)
    {w : Text} (mark : h.mark = some w) : extract? query = some (trimEndOf (· == '.') w) := by
  simp only [extract?, List.findSome?_cons, found, Option.bind_some, mark, Option.map_some]

theorem extract?_of_sign {query : Text} (noLetter : afterLetter.find query = none)
    (noWord : afterWord.find query = none) {h : Hit} (found : afterAt.find query = some h)
    {w : Text} (mark : h.mark = some w) : extract? query = some (trimEndOf (· == '.') w) := by
  simp only [extract?, List.findSome?_cons, noLetter, noWord, found, Option.bind_none,
    Option.map_none, Option.bind_some, mark, Option.map_some]

section
variable {v : Published} {before after : Text}

/-- What has no blanks does not reach beyond the end of a word. -/
theorem length_le_of_visible (apart : Apart after) {b u more : Text}
    (same : b ++ after = u ++ more) (visible : ∀ c ∈ u, isBlank c = false) :
    u.length ≤ b.length := by
  rcases List.append_eq_append_iff.1 same with ⟨x, rfl, rfl⟩ | ⟨x, rfl, -⟩
  · cases x with
    | nil => rw [List.append_nil]
    | cons d x =>
        have seen := visible d (List.mem_append_right _ List.mem_cons_self)
        rw [apart.blank d rfl] at seen
        cases seen
  · rw [List.length_append]
    exact Nat.le_add_right _ _

/-- What is read behind a marker inside a version is only a part of it. -/
theorem extract?_ne_of_inner (apart : Apart after)
    (letters : ∀ lead rest, before ++ '@' :: (v.text ++ after) = lead ++ rest →
      LetterAt lead rest → ∃ a, a <+: v.text ∧ lead = before ++ '@' :: a)
    {a b : Text} (split : v.text = a ++ b) (inner : LetterAt a b) :
    extract? (before ++ '@' :: (v.text ++ after)) ≠ some v.text := by
  have whole : before ++ '@' :: (v.text ++ after) = (before ++ '@' :: a) ++ (b ++ after) := by
    rw [split]
    simp
  have marked : LetterAt (before ++ '@' :: a) (b ++ after) := (letterAt_inside apart).2 inner
  obtain ⟨h, reads⟩ := exists_reads_of_letterAt marked
  obtain ⟨h, found⟩ := Text.Pattern.exists_find reads
  rw [← whole] at found
  obtain ⟨lead, rest, place, reads⟩ := Text.Pattern.find_eq_some found
  obtain ⟨letter, c, w, more, rfl, visible, mark, all⟩ := reads_afterLetter reads
  obtain ⟨a, ⟨b, split⟩, rfl⟩ := letters lead _ place letter
  have same : b ++ after = c :: w ++ more := by
    rw [← split] at place
    simpa using place
  have short := length_le_of_visible apart same (List.forall_mem_cons.2 ⟨visible, all⟩)
  obtain ⟨dropped, trimmed⟩ := Text.exists_eq_trimEndOf_append (· == '.') w
  rw [extract?_of_letter found mark]
  intro whole
  have long := congrArg List.length trimmed
  rw [Option.some.inj whole, ← split, List.length_append, List.length_append] at long
  rw [List.length_cons] at short
  omega

end

/-- Whether a marked version stands within a version. -/
def Published.IsMarkedWithin (v : Published) : Prop := ∃ a b, v.text = a ++ b ∧ LetterAt a b

/-- A published version that the letter v or an at sign marks, with no other marker to be read
first, is what is read exactly if its identifiers have no hyphens and, behind an at sign, none of
them reads as a marked version. -/
theorem extract?_published (v : Published) (before after : Text) (apart : Apart after) :
    (Free before →
      (∀ lead rest, before ++ 'v' :: (v.text ++ after) = lead ++ rest → LetterAt lead rest →
        before.length ≤ lead.length) →
      (extract? (before ++ 'v' :: (v.text ++ after)) = some v.text ↔ v.Plain)) ∧
    (2 ≤ v.numbers.length →
      (∀ lead rest, before ++ '@' :: (v.text ++ after) = lead ++ rest →
        (LetterAt lead rest → ∃ a, a <+: v.text ∧ lead = before ++ '@' :: a) ∧
        ¬ WordAt lead rest ∧ (SignAt rest → before.length ≤ lead.length)) →
      (extract? (before ++ '@' :: (v.text ++ after)) = some v.text ↔
        v.Plain ∧ ¬ v.IsMarkedWithin)) := by
  refine ⟨fun free earliest => ⟨fun extracted => v.plain_of_modest (modest_of_extract? extracted),
    fun plain => ?letter⟩, fun minor alone => ⟨fun extracted =>
    ⟨v.plain_of_modest (modest_of_extract? extracted), ?inner⟩, ?sign⟩⟩
  case letter =>
    obtain ⟨h, prefers, mark⟩ := plain.exists_prefers_letter apart free
    have found := find_of_earliest LetterAt (fun reads => (reads_afterLetter reads).1) earliest prefers
    rw [extract?_of_letter found mark, plain.trimmed]
  case inner =>
    rintro ⟨a, b, split, inner⟩
    exact extract?_ne_of_inner apart (fun lead rest place => (alone lead rest place).1) split inner
      extracted
  case sign =>
    rintro ⟨plain, clear⟩
    obtain ⟨h, prefers, mark⟩ := plain.exists_prefers_sign before apart minor
    have noLetter : afterLetter.find (before ++ '@' :: (v.text ++ after)) = none := by
      refine find_eq_none LetterAt (fun reads => (reads_afterLetter reads).1)
        fun lead rest place letter => ?_
      obtain ⟨a, ⟨b, split⟩, rfl⟩ := (alone lead rest place).1 letter
      obtain rfl : rest = b ++ after := by
        rw [← split] at place
        simpa using place.symm
      exact clear ⟨a, b, split.symm, (letterAt_inside apart).1 letter⟩
    have noWord := find_eq_none WordAt wordAt_of_reads
      fun lead rest place => (alone lead rest place).2.1
    have found := find_of_earliest (fun _ rest => SignAt rest)
      signAt_of_reads (fun lead rest place => (alone lead rest place).2.2)
      prefers
    rw [extract?_of_sign noLetter noWord found mark, plain.trimmed]

/-- A prerelease without hyphens in its identifiers. -/
def candidate : Published where
  numbers := ["19".toList, "1".toList, "0".toList]
  identifiers := ["RC".toList, "1".toList]
  nonempty := by decide
  few := by decide
  numeric := by
    unfold IsNumber
    decide
  named := by decide

theorem LetterAt.starts {before rest : Text} (letter : LetterAt before rest) :
    ∃ c more, rest = c :: more ∧ (c = 'v' ∨ c = 'V') := by
  obtain ⟨-, c, number, rfl, isV, -⟩ := letter
  exact ⟨c, number, rfl, isV⟩

theorem WordAt.starts {before rest : Text} (marker : WordAt before rest) :
    ∃ c more, rest = c :: more ∧ (c = 'v' ∨ c = 'V') := by
  obtain ⟨-, word, blanks, number, rfl, folded, -, -, -⟩ := marker
  cases word with
  | nil => exact absurd folded (by decide)
  | cons c word =>
      have first := congrArg List.head? folded
      have isV : foldCase c = 'v' := by
        rw [List.map_cons, List.head?_cons] at first
        exact Option.some.inj first
      exact ⟨c, _, rfl, eq_of_foldCase_eq_v isV⟩

theorem extract?_published_candidate :
    extract? "react v19.1.0-RC.1 useState".toList = some "19.1.0-RC.1".toList ∧
    extract? "react@19.1.0-RC.1 useState".toList = some "19.1.0-RC.1".toList := by
  have apart : Apart " useState".toList := ⟨by decide⟩
  have plain : candidate.Plain := by
    unfold Published.Plain
    decide
  have unmarked {t lead rest : Text} (split : t = lead ++ rest) (none : 'v' ∉ t ∧ 'V' ∉ t)
      (starts : ∃ c more, rest = c :: more ∧ (c = 'v' ∨ c = 'V')) : False := by
    obtain ⟨c, more, rfl, rfl | rfl⟩ := starts
    · exact none.1 (by simp [split])
    · exact none.2 (by simp [split])
  have early {t lead rest : Text} {c : Char} {n : Nat} (split : t = lead ++ rest)
      (first : rest.head? = some c) (apart : c ∉ t.take n) : n ≤ lead.length := by
    by_contra short
    obtain ⟨more, rfl⟩ := List.head?_eq_some_iff.1 first
    obtain ⟨k, room⟩ : ∃ k, n - lead.length = k + 1 := ⟨n - lead.length - 1, by omega⟩
    rw [split, List.take_append, room, List.take_succ_cons] at apart
    exact apart (List.mem_append_right _ List.mem_cons_self)
  constructor
  · refine ((extract?_published candidate "react ".toList " useState".toList apart).1
      (by unfold Free; decide) fun lead rest place letter => ?_).2 plain
    obtain ⟨c, more, rfl, rfl | rfl⟩ := letter.starts
    · exact early place rfl (by decide)
    · exact early place rfl (by decide)
  · refine ((extract?_published candidate "react".toList " useState".toList apart).2 (by decide)
      fun lead rest place => ?_).2 ⟨plain, ?_⟩
    · refine ⟨fun letter => (unmarked place (by decide) letter.starts).elim,
        fun word => unmarked place (by decide) word.starts, ?_⟩
      rintro ⟨n, number, rfl, -⟩
      exact early place rfl (by decide)
    · rintro ⟨a, b, split, letter⟩
      exact unmarked split (by decide) letter.starts

/-- A second hyphen ends what is read, and a prerelease may read as a marked version itself. -/
theorem extract?_cut_short :
    extract? "react v19.1.0-canary-1 useState".toList = some "19.1.0-canary".toList ∧
    extract? "react@19.1.0-canary-1 useState".toList = some "19.1.0-canary".toList ∧
    extract? "react@1.0.0-v2 useState".toList = some "2".toList := by
  decide +kernel

end ApiReference.Query.Version
