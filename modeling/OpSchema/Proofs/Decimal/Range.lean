import Mathlib.Algebra.Order.Ring.Nat
import Mathlib.Tactic.SplitIfs
import OpSchema.Decimal.Magnitude

/-!
# Magnitudes within range

A quotient is rounded to no magnitude only if its exponent exceeds the greatest
one, which takes a numerator of more than 1023 bits (`Magnitude.exists_ofRatio?`).
So a decimal whose significand has 64 bits and whose power of ten is moderate is a
magnitude (`Magnitude.exists_ofDecimal?`).

The bounds on the way are generous: a rounded quotient is compared with its
whole numerator, not with its value.
-/

namespace OpSchema.Decimal

/-! ## Bounds on the pieces -/

theorem binaryOrder_le (num den : Nat) : binaryOrder num den ≤ num.log2 := by
  unfold binaryOrder
  dsimp only
  split_ifs <;> omega

theorem le_binaryOrder_one (num : Nat) : -1 ≤ binaryOrder num 1 := by
  have hden : Nat.log2 1 = 0 := by decide
  unfold binaryOrder
  dsimp only
  split_ifs <;> omega

theorem divideToEven_le (num den : Nat) : divideToEven num den ≤ num + 1 := by
  have hquotient := Nat.div_le_self num den
  unfold divideToEven
  dsimp only
  split_ifs <;> omega

theorem overPowerOfTwo_fst_le (num den : Nat) (e : Int) :
    (overPowerOfTwo num den e).1 ≤ num * 2 ^ (-e).toNat := by
  unfold overPowerOfTwo
  split_ifs
  · exact Nat.le_mul_of_pos_right num (Nat.two_pow_pos _)
  · exact Nat.le_refl _

namespace Magnitude

/-! ## Quotients -/

/-- The exponent at which a quotient is rounded. -/
def roundingExponent (num den : Nat) : Int :=
  max (binaryOrder num den - (precision - 1 : Nat)) leastExponent

/-- The result of rounding is kept unless its exponent, which may be one more than that
of the rounding, is too large. -/
theorem exists_rounded {num : Nat} (hnum : num ≠ 0) (den : Nat) :
    ∃ rounded : Magnitude,
      rounded.mantissa ≤ num * 2 ^ (-roundingExponent num den).toNat + 1 ∧
      rounded.exponent ≤ max 0 (roundingExponent num den + 1) ∧
      ofRatio? num den =
        if greatestExponent < rounded.exponent then none else some rounded := by
  have hdivided := (divideToEven_le _ (overPowerOfTwo num den (roundingExponent num den)).2).trans
    (Nat.succ_le_succ (overPowerOfTwo_fst_le num den (roundingExponent num den)))
  unfold ofRatio?
  rw [if_neg hnum]
  refine ⟨_, ?_, ?_, rfl⟩
  · rw [← roundingExponent]
    dsimp only
    split_ifs with hzero hfull
    · exact Nat.zero_le _
    · have hhalf : fullMantissa ≤ fullMantissa * 2 := by decide
      exact (hfull ▸ hhalf).trans hdivided
    · exact hdivided
  · dsimp only
    split_ifs
    · exact le_max_left 0 _
    · exact le_max_right 0 _
    · exact (Int.le_add_one (Int.le_refl _)).trans (le_max_right 0 _)

theorem roundingExponent_le (num den : Nat) :
    roundingExponent num den ≤ max ((num.log2 : Int) - 52) (-1074) := by
  have horder := binaryOrder_le num den
  simp only [roundingExponent, precision, leastExponent]
  omega

theorem le_roundingExponent_one (num : Nat) : -53 ≤ roundingExponent num 1 := by
  have horder := le_binaryOrder_one num
  simp only [roundingExponent, precision, leastExponent]
  omega

/-- **A quotient whose numerator has at most 1023 bits is not too large.** -/
theorem exists_ofRatio? {num bits : Nat} (hbits : bits ≤ 1023) (hnum : num < 2 ^ bits) (den : Nat) :
    ∃ x, ofRatio? num den = some x := by
  by_cases hzero : num = 0
  · exact ⟨zero, if_pos hzero⟩
  · obtain ⟨rounded, -, hexponent, hratio⟩ := exists_rounded hzero den
    have hrounding := roundingExponent_le num den
    have hlog := (Nat.log2_lt hzero).2 hnum
    have hkept : ¬greatestExponent < rounded.exponent := by
      rw [greatestExponent]
      omega
    exact ⟨rounded, by rw [hratio, if_neg hkept]⟩

theorem bounds_of_ofRatio? {num : Nat} {x : Magnitude} (hnum : num < 2 ^ 64)
    (hx : ofRatio? num 1 = some x) : x.mantissa ≤ 2 ^ 118 ∧ x.exponent ≤ 12 := by
  by_cases hzero : num = 0
  · subst hzero
    obtain rfl := Option.some.inj hx
    decide
  · obtain ⟨rounded, hmantissa, hexponent, hratio⟩ := exists_rounded hzero 1
    have hgreatest := roundingExponent_le num 1
    have hleast := le_roundingExponent_one num
    have hlog := (Nat.log2_lt hzero).2 hnum
    obtain rfl : rounded = x := by
      rw [hratio] at hx
      split_ifs at hx
      exact Option.some.inj hx
    have hpower : 2 ^ (-roundingExponent num 1).toNat ≤ 2 ^ 53 :=
      Nat.pow_le_pow_right (by decide) (by omega)
    refine ⟨?_, by omega⟩
    calc rounded.mantissa
        ≤ num * 2 ^ (-roundingExponent num 1).toNat + 1 := hmantissa
      _ ≤ 2 ^ 64 * 2 ^ 53 + 1 := Nat.succ_le_succ (Nat.mul_le_mul hnum.le hpower)
      _ ≤ 2 ^ 118 := by decide

/-! ## Decimals -/

theorem two_pow_mul_lt {i j k n : Nat} (hsum : i + j + k < n) : 2 ^ i * 2 ^ j * 2 ^ k < 2 ^ n := by
  rw [← Nat.pow_add, ← Nat.pow_add]
  exact Nat.pow_lt_pow_right (by decide) hsum

theorem bounds_powerOfTen :
    ∀ k < 40, (powerOfTen k).mantissa ≤ 2 ^ 53 ∧ (powerOfTen k).exponent ≤ 77 := by
  decide +kernel

/-- **A decimal with a significand of 64 bits and less than 40 zeros is not too large.** -/
theorem exists_ofDecimal? {significand zeros : Nat} (hsignificand : significand < 2 ^ 64)
    (hzeros : zeros < 40) : ∃ x, ofDecimal? significand zeros = some x := by
  unfold ofDecimal?
  by_cases hzero : significand = 0
  · exact ⟨zero, if_pos hzero⟩
  · obtain ⟨x, hx⟩ := exists_ofRatio? (by decide) hsignificand 1
    obtain ⟨hmantissa, hexponent⟩ := bounds_of_ofRatio? hsignificand hx
    obtain ⟨hmantissa', hexponent'⟩ := bounds_powerOfTen zeros hzeros
    have hpower : 2 ^ (x.exponent + (powerOfTen zeros).exponent).toNat ≤ 2 ^ 89 :=
      Nat.pow_le_pow_right (by decide) (by omega)
    have htens : (zeros : Int).toNat ≤ greatestPowerOfTen := by
      rw [Int.toNat_natCast]
      exact hzeros.le.trans (by decide)
    rw [if_neg hzero, hx, Option.bind_some, if_neg (by omega), if_pos htens]
    have hproduct : 2 ^ 118 * 2 ^ 53 * 2 ^ 89 < 2 ^ 1023 := two_pow_mul_lt (by decide)
    refine exists_ofRatio? (Nat.le_refl _) (Nat.lt_of_le_of_lt ?_ hproduct) _
    refine (overPowerOfTwo_fst_le _ _ _).trans ?_
    rw [Int.neg_neg]
    exact Nat.mul_le_mul (Nat.mul_le_mul hmantissa hmantissa') hpower

end Magnitude

end OpSchema.Decimal
