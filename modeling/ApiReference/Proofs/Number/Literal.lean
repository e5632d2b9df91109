import ApiReference.Number.Literal
import ApiReference.Proofs.Text.Parts

/-!
# Numbers read back

A number is written in decimal digits, without leading zeros, and read back from them. Main
statements: `toNat_ofNat`, `natural?_ofNat`.
-/

namespace ApiReference.Text

theorem isAsciiDigit_of_mem_ofNat {n : Nat} {c : Char} (member : c ∈ ofNat n) :
    isAsciiDigit c = true := by
  have digit := Nat.isDigit_of_mem_toDigits (by decide) (by decide) member
  rw [Char.isDigit, Bool.and_eq_true, decide_eq_true_eq, decide_eq_true_eq] at digit
  rw [isAsciiDigit, Bool.and_eq_true, decide_eq_true_eq, decide_eq_true_eq]
  exact digit

theorem toNat_ofNat (n : Nat) : toNat (ofNat n) = n := by
  have fold (ds : Text) (digits : ∀ c ∈ ds, isAsciiDigit c = true) (m : Nat) :
      ds.foldl (fun n c => n * 10 + (if isAsciiDigit c then c.toNat - 48 else 0)) m =
        Nat.ofDigitChars 10 ds m := by
    induction ds generalizing m with
    | nil => rfl
    | cons c ds ih =>
        obtain ⟨first, rest⟩ := List.forall_mem_cons.1 digits
        rw [List.foldl_cons, ih rest, first, if_pos rfl, Nat.mul_comm]
        rfl
  rw [toNat, fold (ofNat n) (fun c => isAsciiDigit_of_mem_ofNat)]
  exact Nat.ofDigitChars_toDigits (by decide) (by decide)

theorem head?_ofNat {n : Nat} (pos : 0 < n) : (ofNat n).head? ≠ some '0' := by
  induction n using Nat.strongRecOn with
  | ind n ih =>
      rw [ofNat, Nat.toDigits_eq_if (by decide)]
      split
      · next small =>
          have digit : ∀ n < 10, 0 < n → n.digitChar ≠ '0' := by decide
          exact fun zero => digit n small pos (Option.some.inj zero)
      · next large =>
          rw [List.head?_append_of_ne_nil _ Nat.toDigits_ne_nil]
          exact ih (n / 10) (by omega) (by omega)

end ApiReference.Text

namespace ApiReference.Number

theorem natural?_ofNat {bits n : Nat} (fits : n < Nat.pow 2 bits) :
    natural? bits (Text.ofNat n) = some n := by
  have digits : ∀ c ∈ Text.ofNat n, Text.isAsciiDigit c = true :=
    fun c => Text.isAsciiDigit_of_mem_ofNat
  have unsigned : Text.stripStart ['+'] (Text.ofNat n) = none := by
    refine Text.stripStart_eq_none fun sign => ?_
    exact absurd (digits '+' (sign.subset (List.mem_singleton_self _))) (by decide)
  have filled : (Text.ofNat n).isEmpty = false :=
    List.isEmpty_eq_false_iff.2 Nat.toDigits_ne_nil
  have all : (Text.ofNat n).all Text.isAsciiDigit = true := List.all_eq_true.2 digits
  rw [natural?, unsigned, Option.getD_none, filled, all, Text.toNat_ofNat]
  simp only [Bool.not_true, Bool.or_self, Bool.false_or, decide_eq_true_eq, if_neg fits.not_ge]

end ApiReference.Number
