import ApiReference.Text.WordClass
import ApiReference.Text.Basic

/-!
# Classes of characters

How the classes of characters lie to each other: the ranges of ASCII letters and digits, the
characters of words and the blanks.
-/

namespace ApiReference.Text

theorem toNat_of_isAlpha {c : Char} (letter : c.isAlpha = true) :
    0x41 ≤ c.toNat ∧ c.toNat ≤ 0x7A := by
  obtain upper | lower := Bool.or_eq_true_iff.1 letter
  · have range : 0x41 ≤ c.toNat ∧ c.toNat ≤ 0x5A := of_decide_eq_true upper
    omega
  · obtain ⟨least, greatest⟩ := Bool.and_eq_true_iff.1 lower
    have least : 0x61 ≤ c.toNat := of_decide_eq_true least
    have greatest : c.toNat ≤ 0x7A := of_decide_eq_true greatest
    omega

theorem toNat_of_isDigit {c : Char} (digit : c.isDigit = true) :
    0x30 ≤ c.toNat ∧ c.toNat ≤ 0x39 := by
  obtain ⟨least, greatest⟩ := Bool.and_eq_true_iff.1 digit
  exact ⟨of_decide_eq_true least, of_decide_eq_true greatest⟩

theorem toNat_of_isAlphanum {c : Char} (fits : c.isAlphanum = true) :
    0x30 ≤ c.toNat ∧ c.toNat ≤ 0x7A := by
  obtain letter | digit := Bool.or_eq_true_iff.1 fits
  · have := toNat_of_isAlpha letter
    omega
  · have := toNat_of_isDigit digit
    omega

theorem not_isBlank_of_isAlphanum {c : Char} (fits : c.isAlphanum = true) : isBlank c = false := by
  have range := toNat_of_isAlphanum fits
  simp only [isBlank, Bool.or_eq_false_iff, Bool.and_eq_false_iff, decide_eq_false_iff_not,
    beq_eq_false_iff_ne]
  omega

theorem isWordChar_of_isDecimal {c : Char} (digit : isDecimal c = true) : isWordChar c = true := by
  simp only [isWordChar, digit, Bool.or_true, Bool.true_or]

theorem isLetter_or_isDecimal_of_isAlphanum {c : Char} (fits : c.isAlphanum = true) :
    (isLetter c || isDecimal c) = true := by
  have ascii : c.toNat < 128 := by
    have := toNat_of_isAlphanum fits
    omega
  rw [isLetter, isDecimal, if_pos ascii, if_pos ascii]
  exact fits

theorem isWordChar_of_isAlphanum {c : Char} (fits : c.isAlphanum = true) :
    isWordChar c = true := by
  simp only [isWordChar, isLetter_or_isDecimal_of_isAlphanum fits, Bool.true_or]

theorem isAlphanumeric_of_isAlphanum {c : Char} (fits : c.isAlphanum = true) :
    isAlphanumeric c = true := by
  simp only [isAlphanumeric, isLetter_or_isDecimal_of_isAlphanum fits, Bool.true_or]

def blankCodes : List Nat :=
  [9, 10, 11, 12, 13, 32, 0x85, 0xA0, 0x1680, 0x2000, 0x2001, 0x2002, 0x2003, 0x2004, 0x2005,
   0x2006, 0x2007, 0x2008, 0x2009, 0x200A, 0x2028, 0x2029, 0x202F, 0x205F, 0x3000]

theorem mem_blankCodes {c : Char} (blank : isBlank c = true) : c.toNat ∈ blankCodes := by
  simp only [isBlank, Bool.or_eq_true, Bool.and_eq_true, decide_eq_true_eq, beq_iff_eq] at blank
  simp only [blankCodes, List.mem_cons, List.not_mem_nil, or_false]
  omega

/-- A table is checked range by range: none has a blank in it. -/
theorem not_inRanges_of_isBlank {ranges : List (Nat × Nat)} (apart : (ranges.all fun r =>
    blankCodes.all fun n => Nat.blt n r.1 || Nat.blt r.2 n) = true) {c : Char}
    (blank : isBlank c = true) : inRanges ranges c = false := by
  rw [inRanges, List.any_eq_false]
  intro r member inside
  have beside := List.all_eq_true.1 (List.all_eq_true.1 apart r member) _ (mem_blankCodes blank)
  rw [Bool.or_eq_true, Nat.blt_eq, Nat.blt_eq] at beside
  rw [Bool.and_eq_true, decide_eq_true_iff, decide_eq_true_iff] at inside
  omega

section
variable {c : Char} (blank : isBlank c = true)
include blank

theorem not_isWordChar_of_isBlank : isWordChar c = false := by
  by_cases ascii : c.toNat < 128
  · have listed : ∀ n ∈ blankCodes, n < 128 → isWordChar (Char.ofNat n) = false := by decide +kernel
    have found := listed _ (mem_blankCodes blank) ascii
    rwa [Char.ofNat_toNat] at found
  · have connector : isConnector c = false := not_inRanges_of_isBlank (by decide +kernel) blank
    have mark : inRanges markRanges c = false := not_inRanges_of_isBlank (by decide +kernel) blank
    have letter : isLetter c = false := by
      rw [isLetter, if_neg ascii]
      exact not_inRanges_of_isBlank (by decide +kernel) blank
    have digit : isDecimal c = false := by
      rw [isDecimal, if_neg ascii]
      exact not_inRanges_of_isBlank (by decide +kernel) blank
    have other : ∀ n ∈ blankCodes, n ≠ '_'.toNat ∧ n ≠ 0x200C ∧ n ≠ 0x200D := by decide
    obtain ⟨line, joiners⟩ := other _ (mem_blankCodes blank)
    have line : (c == '_') = false := beq_false_of_ne fun same => line (congrArg Char.toNat same)
    rw [isWordChar, letter, digit, mark, connector, line, beq_false_of_ne joiners.1,
      beq_false_of_ne joiners.2]
    exact Bool.and_false _

theorem not_isAlphanumeric_of_isBlank : isAlphanumeric c = false := by
  have numeral : inRanges numeralRanges c = false := not_inRanges_of_isBlank (by decide +kernel) blank
  have word := not_isWordChar_of_isBlank blank
  simp only [isWordChar, Bool.or_eq_false_iff] at word
  rw [isAlphanumeric, word.1.1.1, word.1.1.2, numeral, Bool.and_false]
  rfl

end

theorem not_isBlank_of_isWordChar {c : Char} (word : isWordChar c = true) : isBlank c = false := by
  cases blank : isBlank c with
  | false => rfl
  | true =>
      rw [not_isWordChar_of_isBlank blank] at word
      cases word

end ApiReference.Text
