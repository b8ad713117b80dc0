import LivePage.Proofs.Number.Integers
import LivePage.Proofs.Number.Rounding

/-!
Contract: decimals are read to the nearest number.

Owns:
- a decimal in the interval of a number is read to this number.

Does not own: which decimals lie in an interval.
-/

namespace LivePage.Binary64

/-- Decimals of more than four hundred places before the point are beyond all numbers. -/
private theorem two_pow_lt_ten_pow : (2 : ℚ) ^ (1024 : Int) < 10 ^ (400 : Int) := by
  have less : 2 ^ 1024 < 10 ^ 400 := by decide +kernel
  exact_mod_cast less

/-- Decimals of more than four hundred zeros behind the point are below all numbers. -/
private theorem ten_pow_lt_two_pow : (10 : ℚ) ^ (-400 : Int) < 2 ^ (-1075 : Int) := by
  have less : 2 ^ 1075 < 10 ^ 400 := by decide +kernel
  rw [zpow_neg, zpow_neg, inv_lt_inv₀ (zpow_pos (by norm_num) _) (zpow_pos (by norm_num) _)]
  exact_mod_cast less

/-- A decimal in the interval of a number is read to this number. -/
theorem ofDecimal?_of_covers {number : Binary64} (notZero : number.significand ≠ 0) {digits : Nat}
    {exponent : Int} (covers : number.roundingInterval.Covers (digits * 10 ^ exponent)) :
    ofDecimal? number.isNegative digits exponent = some number := by
  obtain ⟨lower, upper⟩ := pos_of_covers notZero covers
  have digitsPos : 0 < digits := by
    refine Nat.pos_of_ne_zero ?_
    rintro rfl
    have positive := (zpow_pos two_pos _).trans_le lower
    simp at positive
  obtain ⟨notBelow, below⟩ := length_toDigits_bounds digitsPos
  have ten : (1 : ℚ) ≤ 10 := by norm_num
  have notHuge : ¬((Nat.toDigits 10 digits).length : Int) + exponent > 400 := by
    intro huge
    have large : (10 : ℚ) ^ (400 : Int) ≤ digits * 10 ^ exponent := by
      calc (10 : ℚ) ^ (400 : Int)
          ≤ 10 ^ (((Nat.toDigits 10 digits).length - 1 : Nat) + exponent) :=
            zpow_le_zpow_right₀ ten (by omega)
        _ = (10 ^ ((Nat.toDigits 10 digits).length - 1) : Nat) * 10 ^ exponent := by
            rw [zpow_add₀ (by norm_num), zpow_natCast]
            norm_num
        _ ≤ digits * 10 ^ exponent := by gcongr
    exact lt_irrefl _ (large.trans_lt (upper.trans two_pow_lt_ten_pow))
  have notTiny : ¬((Nat.toDigits 10 digits).length : Int) + exponent < -400 := by
    intro tiny
    have small : (digits * 10 ^ exponent : ℚ) ≤ 10 ^ (-400 : Int) := by
      calc (digits * 10 ^ exponent : ℚ)
          ≤ (10 ^ (Nat.toDigits 10 digits).length : Nat) * 10 ^ exponent := by gcongr
        _ = 10 ^ (((Nat.toDigits 10 digits).length : Int) + exponent) := by
            rw [zpow_add₀ (by norm_num), zpow_natCast]
            norm_num
        _ ≤ 10 ^ (-400 : Int) := zpow_le_zpow_right₀ ten (by omega)
    exact lt_irrefl _ (ten_pow_lt_two_pow.trans_le (lower.trans small))
  rw [ofDecimal?, if_neg digitsPos.ne']
  simp only [Int.ofNat_eq_natCast, if_neg notHuge, if_neg notTiny]
  refine ofRatio?_of_covers notZero (Nat.pow_pos (by decide)) ?_
  have ratio := pow_toNat_div_pow_toNat 10 exponent
  have same : ((digits * Nat.pow 10 exponent.toNat : Nat) : ℚ) /
      (Nat.pow 10 (-exponent).toNat : Nat) = digits * 10 ^ exponent := by
    rw [Nat.cast_mul, mul_div_assoc]
    exact congrArg _ ratio
  rwa [same]

end LivePage.Binary64
