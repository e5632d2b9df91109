import ApiReference.Text.Lowercase

/-!
# Lower case is final

No small form of a capital is a capital itself, so to lower a text twice is to lower it once. The
table is checked run by run: its runs are few, their members are many.
Main statement: `lower_lower`.
-/

namespace ApiReference.Text

/-- Whether a code point is one of a run. -/
def CapitalRun.has (r : CapitalRun) (n : Nat) : Bool :=
  r.first ≤ n && n ≤ r.last && (n - r.first) % r.stride == 0

/-- All capitals. The dotted capital I is among them, though its small form is two characters. -/
def capitals : List CapitalRun := ⟨0x41, 0x5A, 1, 32⟩ :: ⟨0x130, 0x130, 1, 0⟩ :: capitalRuns

/-- A character without a small form. -/
def IsSmall (c : Char) : Prop := ∀ r ∈ capitals, r.has c.toNat = false

instance (c : Char) : Decidable (IsSmall c) := inferInstanceAs (Decidable (∀ r ∈ capitals, _))

namespace CapitalRun

/-- The code points of the first and the last small form of a run. -/
def low (r : CapitalRun) : Nat := ((r.first : Int) + r.offset).toNat

def high (r : CapitalRun) : Nat := ((r.last : Int) + r.offset).toNat

/-- The small forms of a run are beside another run or fall between its members. -/
def avoids (r other : CapitalRun) : Bool :=
  Nat.blt r.high other.first || Nat.blt other.last r.low ||
    (Nat.beq other.stride 2 && (Nat.beq r.stride 2 || Nat.beq r.first r.last) &&
      Nat.beq ((r.low + other.first) % 2) 1)

/-- The small forms of a run are characters. -/
def isValid (r : CapitalRun) : Bool :=
  0 ≤ (r.first : Int) + r.offset &&
    (Nat.blt r.high 0xD800 || (Nat.blt 0xDFFF r.low && Nat.blt r.high 0x110000))

end CapitalRun

theorem capitalRuns_avoid :
    (capitalRuns.all fun r => r.isValid && capitals.all r.avoids) = true := by
  decide +kernel

/-- No small form of a run is a member of any run. -/
theorem CapitalRun.has_small {r other : CapitalRun} {n : Nat} (member : r.has n)
    (valid : r.isValid) (avoids : r.avoids other) :
    other.has ((n : Int) + r.offset).toNat = false := by
  simp only [CapitalRun.has, Bool.and_eq_true, decide_eq_true_eq, beq_iff_eq] at member
  obtain ⟨⟨first, last⟩, step⟩ := member
  simp only [isValid, Bool.and_eq_true, decide_eq_true_eq] at valid
  have positive := valid.1
  simp only [CapitalRun.avoids, low, high, Bool.or_eq_true, Bool.and_eq_true, Nat.blt_eq,
    Nat.beq_eq] at avoids
  rw [Bool.eq_false_iff]
  intro inside
  simp only [CapitalRun.has, Bool.and_eq_true, decide_eq_true_eq, beq_iff_eq] at inside
  obtain ⟨⟨above, below⟩, pace⟩ := inside
  -- The small forms lie before the other run, behind it, or within it at the odd places.
  rcases avoids with (before | behind) | ⟨⟨two, steps⟩, odd⟩
  · omega
  · omega
  · rw [two] at pace
    rcases steps with two' | one
    · rw [two'] at step
      omega
    · omega

theorem CapitalRun.toNat_small {r : CapitalRun} {n : Nat} (member : r.has n)
    (valid : r.isValid) :
    (Char.ofNat ((n : Int) + r.offset).toNat).toNat = ((n : Int) + r.offset).toNat := by
  simp only [CapitalRun.has, Bool.and_eq_true, decide_eq_true_eq, beq_iff_eq] at member
  obtain ⟨⟨first, last⟩, -⟩ := member
  simp only [isValid, low, high, Bool.or_eq_true, Bool.and_eq_true, decide_eq_true_eq,
    Nat.blt_eq] at valid
  have character : (((n : Int) + r.offset).toNat).isValidChar := by
    unfold Nat.isValidChar
    omega
  rw [Char.ofNat, dif_pos character]
  rfl

theorem isSmall_iff {c : Char} : IsSmall c ↔ (c.toNat < 0x41 ∨ 0x5A < c.toNat) ∧
    c.toNat ≠ 0x130 ∧ ∀ r ∈ capitalRuns, r.has c.toNat = false := by
  have letters : CapitalRun.has ⟨0x41, 0x5A, 1, 32⟩ c.toNat = false ↔
      c.toNat < 0x41 ∨ 0x5A < c.toNat := by
    simp only [CapitalRun.has, Nat.mod_one, beq_self_eq_true, Bool.and_true,
      Bool.and_eq_false_iff, decide_eq_false_iff_not]
    omega
  have dotted : CapitalRun.has ⟨0x130, 0x130, 1, 0⟩ c.toNat = false ↔ c.toNat ≠ 0x130 := by
    simp only [CapitalRun.has, Nat.mod_one, beq_self_eq_true, Bool.and_true,
      Bool.and_eq_false_iff, decide_eq_false_iff_not]
    omega
  rw [IsSmall, capitals, List.forall_mem_cons, List.forall_mem_cons, letters, dotted]

theorem capitalRuns_above : (capitalRuns.all fun r => Nat.ble 128 r.first) = true := by
  decide +kernel

theorem toLower_small : ∀ n < 128, (Char.ofNat n).toLower.toNat < 128 ∧
    ((Char.ofNat n).toLower.toNat < 0x41 ∨ 0x5A < (Char.ofNat n).toLower.toNat) := by
  decide +kernel

theorem isSmall_toLower {c : Char} (ascii : c.toNat < 128) : IsSmall c.toLower := by
  have small := toLower_small c.toNat ascii
  rw [Char.ofNat_toNat] at small
  refine isSmall_iff.mpr ⟨small.2, by omega, fun r member => ?_⟩
  have above := Nat.le_of_ble_eq_true (List.all_eq_true.mp capitalRuns_above r member)
  simp only [CapitalRun.has, Bool.and_eq_false_iff, decide_eq_false_iff_not]
  omega

theorem isSmall_of_find? {c : Char} (ascii : ¬ c.toNat < 128) (dotted : c.toNat ≠ 0x130)
    (none : capitalRuns.find? (·.has c.toNat) = none) : IsSmall c := by
  refine isSmall_iff.mpr ⟨by omega, dotted, fun r member => ?_⟩
  exact Bool.eq_false_iff.mpr (List.find?_eq_none.mp none r member)

/-- Capital sigma is left out: what becomes of it depends on its place. -/
theorem isSmall_lowerChar {c : Char} (sigma : c.toNat ≠ 0x3A3) :
    ∀ d ∈ lowerChar c, IsSmall d := by
  intro d member
  unfold lowerChar at member
  split at member
  · next ascii =>
      obtain rfl := List.mem_singleton.mp member
      exact isSmall_toLower ascii
  · next ascii =>
      split at member
      · rcases List.mem_cons.mp member with rfl | member
        · decide +kernel
        · obtain rfl := List.mem_singleton.mp member
          decide +kernel
      · next dotted =>
          split at member
          · next r found =>
              obtain rfl := List.mem_singleton.mp member
              have has : r.has c.toNat := by
                simpa only [CapitalRun.has] using List.find?_some found
              have checked := List.all_eq_true.mp capitalRuns_avoid r
                (List.mem_of_find?_eq_some found)
              obtain ⟨valid, avoids⟩ := Bool.and_eq_true_iff.mp checked
              intro other within
              rw [CapitalRun.toNat_small has valid]
              exact CapitalRun.has_small has valid (List.all_eq_true.mp avoids other within)
          · next none =>
              obtain rfl := List.mem_singleton.mp member
              exact isSmall_of_find? ascii dotted none

theorem toNat_ne_of_isSmall {c : Char} (small : IsSmall c) {n : Nat}
    (capital : capitals.any (·.has n) = true) : c.toNat ≠ n := by
  rintro rfl
  obtain ⟨r, within, has⟩ := List.any_eq_true.mp capital
  rw [small r within] at has
  cases has

theorem lowerChar_of_isSmall {c : Char} (small : IsSmall c) : lowerChar c = [c] := by
  obtain ⟨letter, dotted, runs⟩ := isSmall_iff.mp small
  have none : capitalRuns.find? (·.has c.toNat) = none :=
    List.find?_eq_none.mpr fun r member => Bool.eq_false_iff.mp (runs r member)
  simp only [CapitalRun.has] at none
  rw [lowerChar, if_neg dotted, none]
  split
  · have same : c.toLower = c := by
      unfold Char.toLower
      split
      · next capital =>
          obtain ⟨above, below⟩ : 0x41 ≤ c.toNat ∧ c.toNat ≤ 0x5A := capital
          omega
      · rfl
    rw [same]
  · rfl

theorem isSmall_lowerAfter (before t : Text) : ∀ c ∈ lowerAfter before t, IsSmall c := by
  induction t generalizing before with
  | nil => exact fun c member => nomatch member
  | cons c rest ih =>
      intro d member
      rw [lowerAfter, List.mem_append] at member
      rcases member with own | behind
      · split at own
        · obtain rfl := List.mem_singleton.mp own
          split <;> decide +kernel
        · next sigma => exact isSmall_lowerChar sigma d own
      · exact ih (c :: before) d behind

theorem lowerAfter_of_isSmall (before : Text) {t : Text} (small : ∀ c ∈ t, IsSmall c) :
    lowerAfter before t = t := by
  induction t generalizing before with
  | nil => rfl
  | cons c rest ih =>
      have first := small c List.mem_cons_self
      have notSigma : c.toNat ≠ 0x3A3 := toNat_ne_of_isSmall first (by decide +kernel)
      rw [lowerAfter, if_neg notSigma, lowerChar_of_isSmall first,
        ih (c :: before) fun d member => small d (List.mem_cons_of_mem c member)]
      rfl

/-- Lower case of lower case is lower case. -/
@[simp] theorem lower_lower (t : Text) : lower (lower t) = lower t :=
  lowerAfter_of_isSmall [] (isSmall_lowerAfter [] t)

end ApiReference.Text
