import ApiReference.Number.Rounding
import Mathlib.Algebra.Group.Nat.Defs

/-!
# Rounding keeps the order

Rounding to 53 significant bits never swaps two numbers, does not change a number that it has made,
and does not see powers of two. Main statements: `nearest53_mono`, `nearest53_nearest53`,
`nearest53_mul_two_pow`.
-/

namespace ApiReference.Number

/-- A quotient is rounded down below a half, and at a half if it is even. -/
theorem divideToEven_eq (a b : Nat) : divideToEven a b =
    a / b + if 2 * (a % b) < b ∨ 2 * (a % b) = b ∧ a / b % 2 = 0 then 0 else 1 := by
  unfold divideToEven
  by_cases below : 2 * (a % b) < b
  · simp only [below, if_true, true_or, Nat.add_zero]
  · by_cases above : b < 2 * (a % b)
    · have apart : ¬ 2 * (a % b) = b := by omega
      simp only [below, above, apart, if_true, if_false, false_and, or_self]
    · have half : 2 * (a % b) = b := by omega
      simp only [half, Nat.lt_irrefl, if_false, false_or, true_and]
      split <;> rfl

theorem divideToEven_mono {a a' : Nat} (b : Nat) (h : a ≤ a') :
    divideToEven a b ≤ divideToEven a' b := by
  have quotients : a / b ≤ a' / b := Nat.div_le_div_right h
  rw [divideToEven_eq, divideToEven_eq]
  rcases Nat.lt_or_eq_of_le quotients with less | same
  · -- Rounding up makes one quotient at most the next.
    split <;> split <;> omega
  · have remainders : a % b ≤ a' % b := by
      have whole := Nat.div_add_mod a b
      have whole' := Nat.div_add_mod a' b
      rw [same] at whole
      omega
    rw [same]
    split <;> split <;> omega

theorem divideToEven_mul_left (m : Nat) {b : Nat} (positive : 0 < b) :
    divideToEven (m * b) b = m := by
  rw [divideToEven_eq, Nat.mul_mod_left, Nat.mul_div_cancel m positive, Nat.mul_zero,
    if_pos (.inl positive), Nat.add_zero]

theorem divideToEven_mul_two (a b : Nat) : divideToEven (2 * a) (2 * b) = divideToEven a b := by
  have less : 2 * (2 * (a % b)) < 2 * b ↔ 2 * (a % b) < b := by omega
  have half : 2 * (2 * (a % b)) = 2 * b ↔ 2 * (a % b) = b := by omega
  simp only [divideToEven_eq, Nat.mul_div_mul_left a b Nat.two_pos, Nat.mul_mod_mul_left, less,
    half]

theorem lastPlace_pos (n : Nat) : 0 < lastPlace n := Nat.two_pow_pos _

theorem lastPlace_of_small {n : Nat} (small : Nat.log2 n ≤ 52) : lastPlace n = 1 := by
  rw [lastPlace, Nat.sub_eq_zero_of_le small, Nat.pow_eq, Nat.pow_zero]

theorem two_pow_eq_mul_lastPlace {n k : Nat} (bits : Nat.log2 n - 52 ≤ k) :
    2 ^ k = 2 ^ (k - (Nat.log2 n - 52)) * lastPlace n := by
  rw [lastPlace, Nat.pow_eq, ← Nat.pow_add, Nat.sub_add_cancel bits]

theorem nearest53_of_small {n : Nat} (small : Nat.log2 n ≤ 52) : nearest53 n = n := by
  have exact := divideToEven_mul_left n Nat.one_pos
  rw [Nat.mul_one] at exact
  rw [nearest53, lastPlace_of_small small, exact, Nat.mul_one]

theorem nearest53_le {n m : Nat} (h : n ≤ m * lastPlace n) : nearest53 n ≤ m * lastPlace n := by
  have quotient := divideToEven_mono (lastPlace n) h
  rw [divideToEven_mul_left m (lastPlace_pos n)] at quotient
  exact Nat.mul_le_mul_right _ quotient

theorem le_nearest53 {n m : Nat} (h : m * lastPlace n ≤ n) : m * lastPlace n ≤ nearest53 n := by
  have quotient := divideToEven_mono (lastPlace n) h
  rw [divideToEven_mul_left m (lastPlace_pos n)] at quotient
  exact Nat.mul_le_mul_right _ quotient

theorem nearest53_mul_two (n : Nat) : nearest53 (2 * n) = 2 * nearest53 n := by
  rcases Nat.eq_zero_or_pos n with rfl | positive
  · rfl
  · have bits : Nat.log2 (2 * n) = Nat.log2 n + 1 := Nat.log2_two_mul (Nat.ne_of_gt positive)
    by_cases small : Nat.log2 n < 52
    · rw [nearest53_of_small (Nat.le_of_lt small), nearest53_of_small (by omega)]
    · have place : lastPlace (2 * n) = 2 * lastPlace n := by
        have more : Nat.log2 n + 1 - 52 = Nat.log2 n - 52 + 1 := by omega
        rw [lastPlace, bits, more]
        exact Nat.pow_succ'
      rw [nearest53, place, divideToEven_mul_two, nearest53]
      exact Nat.mul_left_comm _ 2 _

/-- Rounding does not see powers of two. -/
theorem nearest53_mul_two_pow (n k : Nat) : nearest53 (n * 2 ^ k) = nearest53 n * 2 ^ k := by
  induction k with
  | zero => rw [Nat.pow_zero, Nat.mul_one, Nat.mul_one]
  | succ k ih =>
      have double (m : Nat) : m * 2 ^ (k + 1) = 2 * (m * 2 ^ k) := by
        rw [Nat.pow_succ, ← Nat.mul_assoc, Nat.mul_comm]
      rw [double, double, nearest53_mul_two, ih]

/-- Rounding keeps the order. -/
theorem nearest53_mono {m n : Nat} (h : m ≤ n) : nearest53 m ≤ nearest53 n := by
  rcases Nat.eq_zero_or_pos m with rfl | positive
  · exact Nat.zero_le _
  · have positive' : n ≠ 0 := by omega
    have bits : Nat.log2 m ≤ Nat.log2 n :=
      (Nat.le_log2 positive').mpr (Nat.le_trans (Nat.log2_self_le (by omega)) h)
    rcases Nat.lt_or_eq_of_le bits with fewer | same
    · -- A power of two lies between numbers of different length, and neither is rounded past it.
      have below := two_pow_eq_mul_lastPlace (n := m) (k := Nat.log2 m + 1) (by omega)
      have above := two_pow_eq_mul_lastPlace (n := n) (k := Nat.log2 n) (by omega)
      calc nearest53 m
          ≤ 2 ^ (Nat.log2 m + 1) := by
            rw [below]
            exact nearest53_le (below ▸ Nat.le_of_lt Nat.lt_log2_self)
        _ ≤ 2 ^ Nat.log2 n := Nat.pow_le_pow_right Nat.two_pos fewer
        _ ≤ nearest53 n := by
            rw [above]
            exact le_nearest53 (above ▸ Nat.log2_self_le positive')
    · have place : lastPlace m = lastPlace n := by rw [lastPlace, lastPlace, same]
      rw [nearest53, nearest53, place]
      exact Nat.mul_le_mul_right _ (divideToEven_mono _ h)

/-- What has been rounded stays as it is. -/
theorem nearest53_nearest53 (n : Nat) : nearest53 (nearest53 n) = nearest53 n := by
  by_cases small : Nat.log2 n ≤ 52
  · rw [nearest53_of_small small, nearest53_of_small small]
  · have most : n ≤ 2 ^ 53 * lastPlace n := by
      have length : Nat.log2 n + 1 - (Nat.log2 n - 52) = 53 := by omega
      rw [← length, ← two_pow_eq_mul_lastPlace (by omega)]
      exact Nat.le_of_lt Nat.lt_log2_self
    have significand : divideToEven n (lastPlace n) ≤ 2 ^ 53 := by
      have quotient := divideToEven_mono (lastPlace n) most
      rwa [divideToEven_mul_left _ (lastPlace_pos n)] at quotient
    have kept : nearest53 (divideToEven n (lastPlace n)) = divideToEven n (lastPlace n) := by
      rcases Nat.lt_or_eq_of_le significand with less | last
      · by_cases zero : divideToEven n (lastPlace n) = 0
        · rw [zero]
          rfl
        · exact nearest53_of_small (Nat.lt_succ_iff.mp ((Nat.log2_lt zero).mpr less))
      · rw [last]
        exact nearest53_mul_two_pow 1 53
    calc nearest53 (nearest53 n)
        = nearest53 (divideToEven n (lastPlace n)) * lastPlace n := nearest53_mul_two_pow _ _
      _ = nearest53 n := by rw [kept, nearest53]

end ApiReference.Number
