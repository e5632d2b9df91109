import ApiReference.Proofs.Text.Classes
import ApiReference.Proofs.Text.Lowercase
import ApiReference.Proofs.Text.Words

/-!
# What lower case keeps

Texts of ASCII characters and small ones are lowered character by character. The characters below
the capitals and the blanks have no other forms: lower case neither drops nor makes one, and what
stands around one is lowered around it; so the words of a text are lowered each for itself. ASCII
letters may be lowered before. Main statements: `lower_eq_map`, `mem_lower_iff`,
`exists_of_lowerAfter_eq`, `words_lower`, `lower_asciiLower`.
-/

namespace ApiReference.Text

theorem toLower_of_not_capital {c : Char} (other : ¬ (0x41 ≤ c.toNat ∧ c.toNat ≤ 0x5A)) :
    c.toLower = c := by
  unfold Char.toLower
  split
  · next capital => exact absurd capital other
  · rfl

theorem toLower_of_isSmall {c : Char} (small : IsSmall c) : c.toLower = c := by
  obtain ⟨letter, -, -⟩ := isSmall_iff.1 small
  exact toLower_of_not_capital (by omega)

/-- Characters whose small form is one character and does not depend on the place. -/
def IsPlain (c : Char) : Prop := c.toNat < 128 ∨ IsSmall c

theorem IsPlain.lowerChar_eq {c : Char} (plain : IsPlain c) : lowerChar c = [c.toLower] := by
  rcases plain with ascii | small
  · rw [lowerChar, if_pos ascii]
  · rw [lowerChar_of_isSmall small, toLower_of_isSmall small]

theorem IsPlain.ne_sigma {c : Char} (plain : IsPlain c) : c.toNat ≠ 0x3A3 := by
  rcases plain with ascii | small
  · omega
  · exact toNat_ne_of_isSmall small (by decide +kernel)

theorem lowerAfter_eq_map (before : Text) {t : Text} (plain : ∀ c ∈ t, IsPlain c) :
    lowerAfter before t = t.map Char.toLower := by
  induction t generalizing before with
  | nil => rfl
  | cons c t ih =>
      obtain ⟨first, rest⟩ := List.forall_mem_cons.1 plain
      rw [lowerAfter, if_neg first.ne_sigma, first.lowerChar_eq, ih (c :: before) rest]
      rfl

theorem lower_eq_map {t : Text} (plain : ∀ c ∈ t, IsPlain c) : lower t = t.map Char.toLower :=
  lowerAfter_eq_map [] plain

theorem decimalRanges_small : (decimalRanges.all fun d => capitals.all fun r =>
    Nat.blt d.2 r.first || Nat.blt r.last d.1) = true := by
  decide +kernel

theorem isSmall_of_isDecimal {c : Char} (digit : isDecimal c = true) : IsSmall c := by
  have listed : inRanges decimalRanges c = true := by
    unfold isDecimal at digit
    split at digit
    · have range := toNat_of_isDigit digit
      refine List.any_eq_true.2 ⟨(0x30, 0x39), List.mem_cons_self, ?_⟩
      simpa using range
    · exact digit
  obtain ⟨d, member, inside⟩ := List.any_eq_true.1 listed
  obtain ⟨least, greatest⟩ := Bool.and_eq_true_iff.1 inside
  have least := of_decide_eq_true least
  have greatest := of_decide_eq_true greatest
  intro r capital
  have apart := List.all_eq_true.1 (List.all_eq_true.1 decimalRanges_small d member) r capital
  rw [Bool.or_eq_true, Nat.blt_eq, Nat.blt_eq] at apart
  simp only [CapitalRun.has, Bool.and_eq_false_iff, decide_eq_false_iff_not]
  omega

/-- Characters that are no form of any other one: those below the capitals, and the blanks. -/
def IsCaseless (c : Char) : Prop := c.toNat < 0x41 ∨ isBlank c = true

instance (c : Char) : Decidable (IsCaseless c) := inferInstanceAs (Decidable (_ ∨ _))

theorem isCaseless_of_isAsciiDigit {c : Char} (digit : isAsciiDigit c = true) : IsCaseless c := by
  have range := toNat_of_isDigit (c := c) digit
  exact .inl (by omega)

/-- Neither the members of a run nor their small forms are caseless. -/
theorem capitalRuns_cased : (capitalRuns.all fun r => Nat.ble 0x41 r.low &&
    blankCodes.all fun n => (Nat.blt n r.first || Nat.blt r.last n) &&
      (Nat.blt n r.low || Nat.blt r.high n)) = true := by
  decide +kernel

theorem toLower_letter : ∀ n < 128, (Char.ofNat n).toLower = Char.ofNat n ∨
    0x61 ≤ (Char.ofNat n).toLower.toNat ∧ (Char.ofNat n).toLower.toNat < 128 := by
  decide +kernel

namespace IsCaseless
variable {c d : Char}

theorem not_letter (caseless : IsCaseless c) : c.toNat < 0x41 ∨ 0x80 ≤ c.toNat := by
  rcases caseless with below | blank
  · exact .inl below
  · have listed : ∀ n ∈ blankCodes, n < 0x41 ∨ 0x80 ≤ n := by decide
    exact listed _ (mem_blankCodes blank)

theorem beside (caseless : IsCaseless c) {r : CapitalRun} (run : r ∈ capitalRuns) :
    (c.toNat < r.first ∨ r.last < c.toNat) ∧ (c.toNat < r.low ∨ r.high < c.toNat) := by
  obtain ⟨low, codes⟩ := Bool.and_eq_true_iff.1 (List.all_eq_true.1 capitalRuns_cased r run)
  have above := Nat.le_of_ble_eq_true (List.all_eq_true.1 capitalRuns_above r run)
  have low := Nat.le_of_ble_eq_true low
  rcases caseless with below | blank
  · omega
  · have apart := List.all_eq_true.1 codes _ (mem_blankCodes blank)
    simpa only [Bool.and_eq_true, Bool.or_eq_true, Nat.blt_eq] using apart

theorem isSmall (caseless : IsCaseless c) : IsSmall c := by
  refine isSmall_iff.2 ⟨?_, ?_, fun r run => ?_⟩
  · have := caseless.not_letter
    omega
  · intro dotted
    obtain rfl : c = Char.ofNat 0x130 := by rw [← dotted, Char.ofNat_toNat]
    exact absurd caseless (by decide)
  · have := (caseless.beside run).1
    simp only [CapitalRun.has, Bool.and_eq_false_iff, decide_eq_false_iff_not]
    omega

/-- No small form of another character is caseless. -/
theorem eq_of_mem_lowerChar (caseless : IsCaseless c) (member : c ∈ lowerChar d) : d = c := by
  unfold lowerChar at member
  split at member
  · next ascii =>
      obtain rfl := List.mem_singleton.1 member
      have form := toLower_letter d.toNat ascii
      rw [Char.ofNat_toNat] at form
      rcases form with same | letter
      · exact same.symm
      · have := caseless.not_letter
        omega
  · split at member
    · rcases List.mem_cons.1 member with rfl | member
      · exact absurd caseless (by decide)
      · obtain rfl := List.mem_singleton.1 member
        exact absurd caseless (by decide)
    · split at member
      · next r found =>
          obtain rfl := List.mem_singleton.1 member
          have has : r.has d.toNat := by simpa only [CapitalRun.has] using List.find?_some found
          have run := List.mem_of_find?_eq_some found
          have valid := (Bool.and_eq_true_iff.1 (List.all_eq_true.1 capitalRuns_avoid r run)).1
          have apart := (caseless.beside run).2
          rw [CapitalRun.toNat_small has valid] at apart
          simp only [CapitalRun.has, Bool.and_eq_true, decide_eq_true_eq] at has
          simp only [CapitalRun.low, CapitalRun.high] at apart
          omega
      · exact (List.mem_singleton.1 member).symm

end IsCaseless

/-- The first character of a text leaves some characters; a caseless one, itself and only itself. -/
theorem exists_lowerAfter_cons (before : Text) (c : Char) (t : Text) : ∃ forms, forms ≠ [] ∧
    lowerAfter before (c :: t) = forms ++ lowerAfter (c :: before) t ∧
    ∀ d, IsCaseless d → (d ∈ forms ↔ c = d) ∧ (c = d → forms = [d]) := by
  by_cases sigma : c.toNat = 0x3A3
  · have other {d : Char} (caseless : IsCaseless d) : c ≠ d := by
      rintro rfl
      exact IsPlain.ne_sigma (.inr caseless.isSmall) sigma
    rw [lowerAfter, if_pos sigma]
    refine ⟨_, List.cons_ne_nil _ _, rfl, fun d caseless => ⟨⟨fun member => ?_, fun same => absurd same
      (other caseless)⟩, fun same => absurd same (other caseless)⟩⟩
    obtain rfl := List.mem_singleton.1 member
    split at caseless <;> exact absurd caseless (by decide)
  · rw [lowerAfter, if_neg sigma]
    refine ⟨lowerChar c, ?_, rfl, fun d caseless => ⟨⟨caseless.eq_of_mem_lowerChar, ?_⟩, ?_⟩⟩
    · unfold lowerChar
      split
      · exact List.cons_ne_nil _ _
      · split
        · exact List.cons_ne_nil _ _
        · split <;> exact List.cons_ne_nil _ _
    · rintro rfl
      rw [lowerChar_of_isSmall caseless.isSmall]
      exact List.mem_singleton_self c
    · rintro rfl
      exact lowerChar_of_isSmall caseless.isSmall

theorem lower_ne_nil {t : Text} (some : t ≠ []) : lower t ≠ [] := by
  obtain ⟨c, t, rfl⟩ := List.exists_cons_of_ne_nil some
  obtain ⟨forms, nonempty, split, -⟩ := exists_lowerAfter_cons [] c t
  rw [lower, split]
  exact List.append_ne_nil_of_left_ne_nil nonempty _

section
variable {before t : Text} {c : Char} (caseless : IsCaseless c)
include caseless

theorem mem_lowerAfter_iff : c ∈ lowerAfter before t ↔ c ∈ t := by
  induction t generalizing before with
  | nil => rfl
  | cons d t ih =>
      obtain ⟨forms, -, split, kept⟩ := exists_lowerAfter_cons before d t
      rw [split, List.mem_append, ih, (kept c caseless).1, List.mem_cons, eq_comm]

theorem mem_lower_iff : c ∈ lower t ↔ c ∈ t := mem_lowerAfter_iff caseless

theorem lower_ne {word : Text} (member : c ∈ t) (absent : c ∉ word) : lower t ≠ word := by
  rintro rfl
  exact absent ((mem_lower_iff caseless).2 member)

theorem head?_lowerAfter : (lowerAfter before t).head? = some c → t.head? = some c := by
  intro first
  cases t with
  | nil => exact first
  | cons d t =>
      obtain ⟨forms, nonempty, split, kept⟩ := exists_lowerAfter_cons before d t
      obtain ⟨e, more, rfl⟩ := List.exists_cons_of_ne_nil nonempty
      rw [split] at first
      obtain rfl : e = c := Option.some.inj first
      rw [List.head?_cons, (kept e caseless).1.1 List.mem_cons_self]

/-- What stands before and after a caseless character is lowered before and after it. -/
theorem exists_of_lowerAfter_eq {u v : Text} (split : lowerAfter before t = u ++ c :: v)
    (last : c ∉ v) : ∃ a b, t = a ++ c :: b ∧ c ∉ b ∧ (u ≠ [] → a ≠ []) ∧
      ∃ context, lowerAfter context b = v := by
  induction t generalizing before u with
  | nil => exact absurd split.symm (List.append_ne_nil_of_right_ne_nil u (List.cons_ne_nil c v))
  | cons d t ih =>
      obtain ⟨forms, nonempty, own, kept⟩ := exists_lowerAfter_cons before d t
      rw [own] at split
      by_cases here : d = c ∧ lowerAfter (d :: before) t = v
      · obtain ⟨rfl, rfl⟩ := here
        rw [(kept d caseless).2 rfl] at split
        have alone : u = [] := by
          have lengths := congrArg List.length split
          simp only [List.length_append, List.length_cons, List.length_nil] at lengths
          exact List.length_eq_zero_iff.1 (by omega)
        exact ⟨[], t, rfl, mt (mem_lowerAfter_iff caseless).2 last, fun some => absurd alone some,
          _, rfl⟩
      · obtain ⟨u', rest⟩ : ∃ u', lowerAfter (d :: before) t = u' ++ c :: v := by
          rcases List.append_eq_append_iff.1 split with ⟨u', -, rest⟩ | ⟨x, rfl, rest⟩
          · exact ⟨u', rest⟩
          · cases x with
            | nil => exact ⟨[], rest.symm⟩
            | cons e x =>
                obtain ⟨rfl, rfl⟩ := List.cons.inj rest
                have same := (kept c caseless).1.1 (List.mem_append_right u List.mem_cons_self)
                have single := (kept c caseless).2 same
                have short := congrArg List.length single
                simp only [List.length_append, List.length_cons, List.length_nil] at short
                obtain rfl : x = [] := List.length_eq_zero_iff.1 (by omega)
                exact absurd ⟨same, rfl⟩ here
        obtain ⟨a, b, rfl, absent, -, context⟩ := ih rest
        exact ⟨d :: a, b, rfl, absent, fun _ => List.cons_ne_nil d a, context⟩

end
section
variable {c : Char} (blank : isBlank c = true)
include blank

/-- A letter does not see past a blank. -/
theorem meetsCased_append_cons (a b : Text) : meetsCased (a ++ c :: b) = meetsCased a := by
  have counts : inRanges caseIgnorableRanges c = false :=
    not_inRanges_of_isBlank (by decide +kernel) blank
  have uncased : inRanges casedRanges c = false := not_inRanges_of_isBlank (by decide +kernel) blank
  unfold meetsCased
  rw [List.dropWhile_append]
  cases kept : a.dropWhile (inRanges caseIgnorableRanges) with
  | nil =>
      rw [List.isEmpty_nil, if_pos rfl, List.dropWhile_cons_of_neg (Bool.eq_false_iff.1 counts)]
      exact uncased
  | cons d a => rfl

theorem lowerAfter_context (u v t : Text) : lowerAfter (u ++ c :: v) t = lowerAfter u t := by
  induction t generalizing u with
  | nil => rfl
  | cons d t ih =>
      rw [lowerAfter, lowerAfter, meetsCased_append_cons blank, ← List.cons_append, ih]

theorem lowerAfter_append_cons (before a b : Text) :
    lowerAfter before (a ++ c :: b) = lowerAfter before a ++ c :: lower b := by
  induction a generalizing before with
  | nil =>
      have small : IsSmall c := IsCaseless.isSmall (.inr blank)
      have behind : lowerAfter (c :: before) b = lower b := lowerAfter_context blank [] before b
      rw [List.nil_append, lowerAfter.eq_2, if_neg (IsPlain.ne_sigma (.inr small)),
        lowerChar_of_isSmall small, behind]
      rfl
  | cons d a ih =>
      rw [List.cons_append, lowerAfter, lowerAfter, meetsCased_append_cons blank, ih,
        List.append_assoc]

theorem lower_append_cons (a b : Text) : lower (a ++ c :: b) = lower a ++ c :: lower b :=
  lowerAfter_append_cons blank [] a b

end

theorem isWord_lower_iff {w : Text} : IsWord (lower w) ↔ IsWord w := by
  have kept {c : Char} (blank : isBlank c = true) : c ∈ lower w ↔ c ∈ w := mem_lower_iff (.inr blank)
  constructor
  · intro word
    refine ⟨?_, fun c member => Bool.eq_false_iff.2 fun blank => ?_⟩
    · rintro rfl
      exact word.nonempty rfl
    · exact Bool.eq_false_iff.1 (word.visible c ((kept blank).2 member)) blank
  · intro word
    refine ⟨lower_ne_nil word.nonempty, fun c member => Bool.eq_false_iff.2 fun blank => ?_⟩
    exact Bool.eq_false_iff.1 (word.visible c ((kept blank).1 member)) blank

/-- The words of a text are lowered each for itself. -/
theorem words_lower (t : Text) : words (lower t) = (words t).map lower := by
  induction length : t.length using Nat.strongRecOn generalizing t with
  | ind n ih =>
      by_cases spaced : ∃ c ∈ t, isBlank c = true
      · obtain ⟨c, member, blank⟩ := spaced
        obtain ⟨a, b, rfl⟩ := List.append_of_mem member
        rw [List.length_append, List.length_cons] at length
        rw [lower_append_cons blank, words_append_cons blank, words_append_cons blank,
          List.map_append, ih a.length (by omega) a rfl, ih b.length (by omega) b rfl]
      · by_cases nothing : t = []
        · rw [nothing]
          rfl
        · have word : IsWord t := ⟨nothing, fun c member =>
            Bool.eq_false_iff.2 fun blank => spaced ⟨c, member, blank⟩⟩
          rw [word.words_eq, (isWord_lower_iff.2 word).words_eq, List.map_singleton]

theorem toNat_toLower_of_capital {c : Char} (capital : 0x41 ≤ c.toNat ∧ c.toNat ≤ 0x5A) :
    c.toLower.toNat = c.toNat + 32 := by
  have listed : ∀ n < 0x5B, 0x41 ≤ n → (Char.ofNat n).toLower.toNat = n + 32 := by decide +kernel
  have small := listed c.toNat (Nat.lt_succ_of_le capital.2) capital.1
  rwa [Char.ofNat_toNat] at small

theorem letters_ignored : (caseIgnorableRanges.all fun r =>
    (Nat.blt r.2 0x41 || Nat.blt 0x5A r.1) && (Nat.blt r.2 0x61 || Nat.blt 0x7A r.1)) = true := by
  decide +kernel

theorem letters_cased : ([(0x41, 0x5A), (0x61, 0x7A)] : List (Nat × Nat)) <+: casedRanges := ⟨_, rfl⟩

section
variable {c : Char} (letter : (0x41 ≤ c.toNat ∧ c.toNat ≤ 0x5A) ∨ (0x61 ≤ c.toNat ∧ c.toNat ≤ 0x7A))
include letter

theorem not_ignorable_of_letter : inRanges caseIgnorableRanges c = false := by
  rw [inRanges, List.any_eq_false]
  intro r member inside
  have apart := List.all_eq_true.1 letters_ignored r member
  simp only [Bool.and_eq_true, Bool.or_eq_true, Nat.blt_eq] at apart
  simp only [Bool.and_eq_true, decide_eq_true_eq] at inside
  omega

theorem cased_of_letter : inRanges casedRanges c = true := by
  have among {r : Nat × Nat} (member : r ∈ [(0x41, 0x5A), (0x61, 0x7A)])
      (range : r.1 ≤ c.toNat ∧ c.toNat ≤ r.2) : inRanges casedRanges c = true := by
    refine List.any_eq_true.2 ⟨r, letters_cased.subset member, ?_⟩
    simpa using range
  rcases letter with capital | small
  · exact among (by decide : (0x41, 0x5A) ∈ _) capital
  · exact among (by decide : (0x61, 0x7A) ∈ _) small

end

theorem inRanges_toLower (c : Char) :
    inRanges caseIgnorableRanges c.toLower = inRanges caseIgnorableRanges c ∧
    inRanges casedRanges c.toLower = inRanges casedRanges c := by
  by_cases capital : 0x41 ≤ c.toNat ∧ c.toNat ≤ 0x5A
  · have small := toNat_toLower_of_capital capital
    have range : 0x61 ≤ c.toLower.toNat ∧ c.toLower.toNat ≤ 0x7A := by omega
    rw [not_ignorable_of_letter (.inl capital), not_ignorable_of_letter (.inr range),
      cased_of_letter (.inl capital), cased_of_letter (.inr range)]
    exact ⟨rfl, rfl⟩
  · rw [toLower_of_not_capital capital]
    exact ⟨rfl, rfl⟩

theorem lowerChar_toLower (c : Char) : lowerChar c.toLower = lowerChar c := by
  by_cases capital : 0x41 ≤ c.toNat ∧ c.toNat ≤ 0x5A
  · have ascii : c.toNat < 128 := by omega
    have small : IsSmall c.toLower := isSmall_toLower ascii
    rw [lowerChar_of_isSmall small, IsPlain.lowerChar_eq (.inl ascii)]
  · rw [toLower_of_not_capital capital]

theorem toNat_toLower_eq_sigma_iff (c : Char) : c.toLower.toNat = 0x3A3 ↔ c.toNat = 0x3A3 := by
  by_cases capital : 0x41 ≤ c.toNat ∧ c.toNat ≤ 0x5A
  · rw [toNat_toLower_of_capital capital]
    omega
  · rw [toLower_of_not_capital capital]

theorem meetsCased_asciiLower (t : Text) : meetsCased (asciiLower t) = meetsCased t := by
  induction t with
  | nil => rfl
  | cons c t ih =>
      obtain ⟨ignorable, cased⟩ := inRanges_toLower c
      have first : asciiLower (c :: t) = c.toLower :: asciiLower t := rfl
      rw [meetsCased, meetsCased, first]
      cases ignored : inRanges caseIgnorableRanges c with
      | true =>
          rw [List.dropWhile_cons_of_pos (ignorable.trans ignored), List.dropWhile_cons_of_pos ignored]
          exact ih
      | false =>
          rw [List.dropWhile_cons_of_neg (by rw [ignorable, ignored]; exact Bool.false_ne_true),
            List.dropWhile_cons_of_neg (by rw [ignored]; exact Bool.false_ne_true)]
          exact cased

theorem lowerAfter_asciiLower (before t : Text) :
    lowerAfter (asciiLower before) (asciiLower t) = lowerAfter before t := by
  induction t generalizing before with
  | nil => rfl
  | cons c t ih =>
      have first : asciiLower (c :: t) = c.toLower :: asciiLower t := rfl
      have context : asciiLower (c :: before) = c.toLower :: asciiLower before := rfl
      rw [first, lowerAfter, lowerAfter, meetsCased_asciiLower, meetsCased_asciiLower,
        lowerChar_toLower, ← context, ih (c :: before)]
      simp only [toNat_toLower_eq_sigma_iff]

/-- Letters of ASCII may be lowered before: what becomes of the others does not depend on it. -/
theorem lower_asciiLower (t : Text) : lower (asciiLower t) = lower t := lowerAfter_asciiLower [] t

end ApiReference.Text
