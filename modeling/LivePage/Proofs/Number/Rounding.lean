import LivePage.Number.Shortest
import Mathlib.Algebra.Order.Field.Power
import Mathlib.Data.Rat.Cast.Order
import Mathlib.Tactic.FieldSimp
import Mathlib.Tactic.Linarith
import Mathlib.Tactic.NormNum
import Mathlib.Tactic.Positivity
import Mathlib.Tactic.Ring

/-!
Contract: a quotient is rounded to the number that it is nearest to.

Owns:
- powers with integer exponents as quotients of naturals;
- the scale that a quotient is rounded at;
- the quotients that round to a number.

Does not own: decimals.
-/

namespace LivePage

/-- A power as the quotient of two naturals, one of which is one. -/
theorem pow_toNat_div_pow_toNat (base : Nat) (exponent : Int) :
    ((base ^ exponent.toNat : Nat) : ℚ) / (base ^ (-exponent).toNat : Nat) =
      (base : ℚ) ^ exponent := by
  rcases Int.le_total 0 exponent with upward | downward
  · obtain ⟨places, rfl⟩ := Int.eq_ofNat_of_zero_le upward
    simp
  · obtain ⟨places, isPlaces⟩ := Int.eq_ofNat_of_zero_le (Int.neg_nonneg_of_nonpos downward)
    obtain rfl : exponent = -places := by omega
    simp

namespace Binary64

theorem powerOfTwo_pos (exponent : Int) :
    0 < (powerOfTwo exponent).1 ∧ 0 < (powerOfTwo exponent).2 :=
  ⟨Nat.pow_pos (by decide), Nat.pow_pos (by decide)⟩

theorem powerOfTwo_ratio (exponent : Int) :
    ((powerOfTwo exponent).1 : ℚ) / (powerOfTwo exponent).2 = 2 ^ exponent :=
  pow_toNat_div_pow_toNat 2 exponent

/-! ## Rounding to a natural -/

/-- A quotient is rounded to a natural at most a half away; if it is a half, to an even one. -/
theorem divideNearest_eq {numerator denominator nearest : Nat} (positive : 0 < denominator)
    (notBelow : 2 * nearest * denominator ≤ 2 * numerator + denominator)
    (notAbove : 2 * numerator ≤ 2 * nearest * denominator + denominator)
    (tie : 2 * nearest * denominator = 2 * numerator + denominator ∨
      2 * numerator = 2 * nearest * denominator + denominator → nearest % 2 = 0) :
    divideNearest numerator denominator = nearest := by
  have whole := Nat.div_add_mod numerator denominator
  have less := Nat.mod_lt numerator positive
  unfold divideNearest
  simp only
  generalize numerator / denominator = quotient at *
  generalize numerator % denominator = rest at *
  subst whole
  -- Only the quotient and its successor are so near.
  have near : nearest = quotient ∨ nearest = quotient + 1 := by
    have upper : nearest < quotient + 2 := by
      by_contra far
      have grown : (quotient + 2) * denominator ≤ nearest * denominator :=
        Nat.mul_le_mul_right _ (Nat.le_of_not_lt far)
      rw [Nat.add_mul, Nat.mul_comm quotient] at grown
      rw [Nat.mul_assoc] at notBelow
      omega
    have lower : quotient < nearest + 1 := by
      by_contra far
      have grown : (nearest + 1) * denominator ≤ quotient * denominator :=
        Nat.mul_le_mul_right _ (Nat.le_of_not_lt far)
      rw [Nat.add_mul, Nat.mul_comm quotient] at grown
      rw [Nat.mul_assoc] at notAbove
      omega
    omega
  rcases near with rfl | rfl
  · rw [Nat.mul_assoc, Nat.mul_comm nearest] at notAbove tie
    split
    · next up =>
      simp only [Bool.or_eq_true, decide_eq_true_eq, Bool.and_eq_true, beq_iff_eq] at up
      omega
    · rfl
  · rw [Nat.mul_assoc, Nat.add_mul, Nat.mul_comm quotient] at notBelow tie
    split
    · rfl
    · next stays =>
      simp only [Bool.or_eq_true, decide_eq_true_eq, Bool.and_eq_true, beq_iff_eq] at stays
      omega

/-! ## The scale -/

/-- The scale at which a positive quotient has as many binary digits as a significand, or the
least one. -/
structure ScaleFor (quotient : ℚ) (scale : Int) : Prop where
  least : -1074 ≤ scale
  below : quotient < 2 ^ (scale + 53)
  above : scale = -1074 ∨ 2 ^ (scale + 52) ≤ quotient

theorem quotient_bounds {numerator denominator : Nat} (notZero : numerator ≠ 0)
    (positive : 0 < denominator) :
    (2 : ℚ) ^ ((numerator.log2 : Int) - denominator.log2 - 1) ≤ numerator / denominator ∧
      (numerator : ℚ) / denominator < 2 ^ ((numerator.log2 : Int) - denominator.log2 + 1) := by
  have positive' : (0 : ℚ) < denominator := by exact_mod_cast positive
  have least : (2 : ℚ) ^ (numerator.log2 : Int) ≤ numerator := by
    exact_mod_cast Nat.log2_self_le notZero
  have greatest : (numerator : ℚ) < 2 ^ ((numerator.log2 : Int) + 1) := by
    exact_mod_cast Nat.lt_log2_self
  have leastToo : (2 : ℚ) ^ (denominator.log2 : Int) ≤ denominator := by
    exact_mod_cast Nat.log2_self_le positive.ne'
  have greatestToo : (denominator : ℚ) < 2 ^ ((denominator.log2 : Int) + 1) := by
    exact_mod_cast Nat.lt_log2_self
  constructor
  · rw [le_div_iff₀ positive']
    calc (2 : ℚ) ^ ((numerator.log2 : Int) - denominator.log2 - 1) * denominator
        ≤ 2 ^ ((numerator.log2 : Int) - denominator.log2 - 1) *
            2 ^ ((denominator.log2 : Int) + 1) := by gcongr
      _ = 2 ^ (numerator.log2 : Int) := by
          rw [← zpow_add₀ two_ne_zero]
          congr 1
          omega
      _ ≤ numerator := least
  · rw [div_lt_iff₀ positive']
    calc (numerator : ℚ) < 2 ^ ((numerator.log2 : Int) + 1) := greatest
      _ = 2 ^ ((numerator.log2 : Int) - denominator.log2 + 1) * 2 ^ (denominator.log2 : Int) := by
          rw [← zpow_add₀ two_ne_zero]
          congr 1
          omega
      _ ≤ 2 ^ ((numerator.log2 : Int) - denominator.log2 + 1) * denominator := by gcongr

theorem mul_le_scaled_iff {numerator denominator : Nat} (positive : 0 < denominator) (scale : Int)
    (count : Nat) :
    count * (denominator * (powerOfTwo scale).1) ≤ numerator * (powerOfTwo scale).2 ↔
      count * (2 : ℚ) ^ scale ≤ numerator / denominator := by
  obtain ⟨posFirst, posSecond⟩ := powerOfTwo_pos scale
  have positive' : (0 : ℚ) < denominator := by exact_mod_cast positive
  have posSecond' : (0 : ℚ) < (powerOfTwo scale).2 := by exact_mod_cast posSecond
  rw [← powerOfTwo_ratio, mul_div_assoc', div_le_div_iff₀ posSecond' positive',
    ← Nat.cast_le (α := ℚ)]
  push_cast
  rw [mul_assoc, mul_comm (denominator : ℚ)]

theorem exists_scaleFor {numerator denominator : Nat} (notZero : numerator ≠ 0)
    (positive : 0 < denominator) :
    ∃ scale, ScaleFor (numerator / denominator) scale ∧
      nearestMagnitude numerator denominator = (scale + 1074).toNat * exponentUnit +
        divideNearest (numerator * (powerOfTwo scale).2) (denominator * (powerOfTwo scale).1) := by
  obtain ⟨lower, upper⟩ := quotient_bounds notZero positive
  unfold nearestMagnitude
  simp only [Int.ofNat_eq_natCast]
  generalize isEstimate : max ((numerator.log2 : Int) - denominator.log2 - 53) (-1074) = estimate
  have scaledPos : 0 < denominator * (powerOfTwo estimate).1 :=
    Nat.mul_pos positive (powerOfTwo_pos estimate).1
  have digits : (2 : ℚ) ^ (estimate + 53) = (2 * exponentUnit : Nat) * 2 ^ estimate := by
    rw [zpow_add₀ two_ne_zero, mul_comm]
    norm_num [exponentUnit]
  have isLarge : numerator * (powerOfTwo estimate).2 / (denominator * (powerOfTwo estimate).1) ≥
      2 * exponentUnit ↔ (2 : ℚ) ^ (estimate + 53) ≤ numerator / denominator := by
    rw [ge_iff_le, Nat.le_div_iff_mul_le scaledPos, mul_le_scaled_iff positive, digits]
  split
  · next large =>
    rw [isLarge] at large
    refine ⟨estimate + 1, ⟨by omega, ?_, .inr ?_⟩, rfl⟩
    · exact lt_of_lt_of_le upper (zpow_le_zpow_right₀ one_le_two (by omega))
    · rwa [add_assoc]
  · next small =>
    rw [isLarge, not_le] at small
    refine ⟨estimate, ⟨by omega, small, ?_⟩, rfl⟩
    by_cases isLeast : estimate = -1074
    · exact .inl isLeast
    · exact .inr (le_trans (zpow_le_zpow_right₀ one_le_two (by omega)) lower)

/-- A quotient is rounded at a scale to the natural that is at most half a unit away. -/
theorem divideNearest_of_near {numerator denominator nearest : Nat} (positive : 0 < denominator)
    {scale : Int}
    (notBelow : 2 * nearest * (2 : ℚ) ^ scale ≤ 2 * (numerator / denominator) + 2 ^ scale)
    (notAbove : 2 * ((numerator : ℚ) / denominator) ≤ 2 * nearest * 2 ^ scale + 2 ^ scale)
    (tie : 2 * nearest * (2 : ℚ) ^ scale = 2 * (numerator / denominator) + 2 ^ scale ∨
      2 * ((numerator : ℚ) / denominator) = 2 * nearest * 2 ^ scale + 2 ^ scale →
        nearest % 2 = 0) :
    divideNearest (numerator * (powerOfTwo scale).2) (denominator * (powerOfTwo scale).1) =
      nearest := by
  obtain ⟨posFirst, posSecond⟩ := powerOfTwo_pos scale
  have positive' : (0 : ℚ) < denominator := by exact_mod_cast positive
  have posSecond' : (0 : ℚ) < (powerOfTwo scale).2 := by exact_mod_cast posSecond
  have common : (0 : ℚ) < denominator * (powerOfTwo scale).2 := mul_pos positive' posSecond'
  have first : (numerator * (powerOfTwo scale).2 : ℚ) =
      numerator / denominator * (denominator * (powerOfTwo scale).2) := by
    field_simp
  have second : (denominator * (powerOfTwo scale).1 : ℚ) =
      2 ^ scale * (denominator * (powerOfTwo scale).2) := by
    rw [← powerOfTwo_ratio]
    field_simp
  generalize (numerator : ℚ) / denominator = quotient at *
  generalize (2 : ℚ) ^ scale = unit at *
  generalize (denominator * (powerOfTwo scale).2 : ℚ) = factor at *
  refine divideNearest_eq (Nat.mul_pos positive posFirst) ?_ ?_ ?_
  · rw [← Nat.cast_le (α := ℚ)]
    push_cast
    rw [first, second]
    nlinarith
  · rw [← Nat.cast_le (α := ℚ)]
    push_cast
    rw [first, second]
    nlinarith
  · intro half
    refine tie ?_
    rw [← Nat.cast_inj (R := ℚ), ← Nat.cast_inj (R := ℚ)] at half
    push_cast at half
    rw [first, second] at half
    refine half.imp (fun isHalf => ?_) (fun isHalf => ?_)
    · refine mul_right_cancel₀ common.ne' ?_
      linarith
    · refine mul_right_cancel₀ common.ne' ?_
      linarith

/-! ## The parts of a number -/

/-- How sign, scale and significand make up the bits of a number. -/
structure Parts (number : Binary64) : Prop where
  significand_lt : number.significand < 2 * exponentUnit
  scale_le : number.scale ≤ 971
  least : -1074 ≤ number.scale
  normal : number.scale = -1074 ∨ exponentUnit ≤ number.significand ∧ 1 < number.biasedExponent
  magnitude : number.bits.toNat % signUnit =
    (number.scale + 1074).toNat * exponentUnit + number.significand

theorem parts (number : Binary64) : Parts number := by
  have finite : number.biasedExponent ≠ 2047 := number.finite
  have small : number.biasedExponent < 2048 := Nat.mod_lt _ (by decide)
  have split : number.bits.toNat % signUnit =
      number.biasedExponent * exponentUnit + number.bits.toNat % exponentUnit := by
    simp only [biasedExponent, signUnit, exponentUnit]
    omega
  have isScale : number.scale = (max number.biasedExponent 1 : Nat) - 1075 := rfl
  have isSignificand : number.significand = number.bits.toNat % exponentUnit +
      (if number.biasedExponent = 0 then 0 else exponentUnit) := rfl
  by_cases subnormal : number.biasedExponent = 0
  · rw [if_pos subnormal] at isSignificand
    refine ⟨?_, ?_, ?_, ?_, split.trans ?_⟩ <;> clear split <;> simp only [exponentUnit] at *
      <;> omega
  · rw [if_neg subnormal] at isSignificand
    refine ⟨?_, ?_, ?_, ?_, split.trans ?_⟩ <;> clear split <;> simp only [exponentUnit] at *
      <;> omega

/-- The two zeros are nothing but signs. -/
theorem magnitude_of_zero {number : Binary64} (isZero : number.significand = 0) :
    number.bits.toNat % signUnit = 0 := by
  have parts := number.parts
  have isLeast : number.scale = -1074 := by
    refine parts.normal.resolve_right fun normal => ?_
    rw [isZero] at normal
    exact absurd normal.1 (by decide)
  rw [parts.magnitude, isLeast, isZero]
  rfl

/-- A number is made up of its sign and the bits below it. -/
theorem ofMagnitude?_eq (number : Binary64) :
    ofMagnitude? number.isNegative (number.bits.toNat % signUnit) = some number := by
  have finite := number.finite
  have range : number.bits.toNat < 2 ^ 64 := number.bits.toNat_lt
  have whole : number.bits.toNat % signUnit + (if number.isNegative then signUnit else 0) =
      number.bits.toNat := by
    simp only [isNegative, beq_iff_eq, signUnit]
    split <;> omega
  have below : number.bits.toNat % signUnit < 2047 * exponentUnit := by
    simp only [signUnit, exponentUnit] at *
    omega
  unfold ofMagnitude?
  simp only [whole, UInt64.ofNat_toNat]
  rw [dif_pos ⟨below, finite⟩]

/-! ## The quotients that round to a number -/

/-- The quotients between the ends of an interval; the ends themselves only if it is closed. -/
structure RoundingInterval.Covers (interval : RoundingInterval) (quotient : ℚ) : Prop where
  low_le : (interval.low : ℚ) / interval.denominator ≤ quotient
  le_high : quotient ≤ interval.high / interval.denominator
  inside : interval.closed = false →
    (interval.low : ℚ) / interval.denominator ≠ quotient ∧
      quotient ≠ interval.high / interval.denominator

/-- How many quarters of a unit lie between a number and the lower end of its interval. -/
def quartersBelow (number : Binary64) : Nat :=
  if number.significand = exponentUnit ∧ number.biasedExponent > 1 then 1 else 2

theorem quartersBelow_le (number : Binary64) : number.quartersBelow ≤ 2 := by
  unfold quartersBelow
  split <;> decide

theorem quartersBelow_le_two (number : Binary64) : (number.quartersBelow : ℚ) ≤ 2 := by
  exact_mod_cast number.quartersBelow_le

/-- The ends of an interval and the value inside it are so many quarters of a unit. -/
private theorem quarters_div (number : Binary64) (count : Nat) :
    ((count * (powerOfTwo (number.scale - 2)).1 : Nat) : ℚ) / (powerOfTwo (number.scale - 2)).2 =
      count * 2 ^ (number.scale - 2) := by
  rw [← powerOfTwo_ratio, Nat.cast_mul, mul_div_assoc]

theorem low_roundingInterval {number : Binary64} (notZero : number.significand ≠ 0) :
    (number.roundingInterval.low : ℚ) / number.roundingInterval.denominator =
      (4 * number.significand - number.quartersBelow) * 2 ^ (number.scale - 2) := by
  have few := number.quartersBelow_le
  refine (quarters_div number (4 * number.significand - number.quartersBelow)).trans ?_
  rw [Nat.cast_sub (by omega)]
  push_cast
  rfl

theorem high_roundingInterval (number : Binary64) :
    (number.roundingInterval.high : ℚ) / number.roundingInterval.denominator =
      (4 * number.significand + 2) * 2 ^ (number.scale - 2) := by
  refine (quarters_div number (4 * number.significand + 2)).trans ?_
  push_cast
  rfl

theorem value_roundingInterval (number : Binary64) :
    (number.roundingInterval.value : ℚ) / number.roundingInterval.denominator =
      4 * number.significand * 2 ^ (number.scale - 2) := by
  refine (quarters_div number (4 * number.significand)).trans ?_
  push_cast
  rfl

/-- Powers of two in quarters of a unit. -/
theorem zpow_eq_quarters (scale : Int) (places : Nat) :
    (2 : ℚ) ^ (scale + places) = 2 ^ (places + 2) * 2 ^ (scale - 2) := by
  rw [← zpow_natCast, ← zpow_add₀ two_ne_zero]
  congr 1
  push_cast
  omega

section Nearest

variable {number : Binary64} (notZero : number.significand ≠ 0) {quotient : ℚ}
  (covers : number.roundingInterval.Covers quotient)

include notZero covers

/-- What an interval covers lies so many quarters of a unit around its number. -/
theorem quarters_of_covers :
    (4 * number.significand - number.quartersBelow) * 2 ^ (number.scale - 2) ≤ quotient ∧
      quotient ≤ (4 * number.significand + 2) * 2 ^ (number.scale - 2) := by
  rw [← low_roundingInterval notZero, ← high_roundingInterval]
  exact ⟨covers.low_le, covers.le_high⟩

/-- What rounds to a number is measured at the scale of the number, or one below it if the
number is the least of its scale. -/
theorem scale_of_covers {scale : Int} (isScale : ScaleFor quotient scale) :
    scale = number.scale ∨ scale = number.scale - 1 ∧ number.significand = exponentUnit ∧
      number.quartersBelow = 1 ∧ quotient < 2 ^ (number.scale + 52) := by
  obtain ⟨below, -, least, normal, -⟩ := number.parts
  obtain ⟨low, high⟩ := quarters_of_covers notZero covers
  have few := number.quartersBelow_le_two
  have positive : (0 : ℚ) < 2 ^ (number.scale - 2) := zpow_pos two_pos _
  have quarters := zpow_eq_quarters number.scale
  generalize (2 : ℚ) ^ (number.scale - 2) = quarter at *
  rcases lt_trichotomy scale number.scale with less | same | more
  · right
    have small : quotient < 2 ^ (number.scale + 52) :=
      lt_of_lt_of_le isScale.below (zpow_le_zpow_right₀ one_le_two (by omega))
    obtain ⟨large, isBiased⟩ := normal.resolve_left (by have := isScale.least; omega)
    have isUnit : number.significand = exponentUnit := by
      have smaller := low.trans_lt (small.trans_eq (quarters 52))
      have inQuarters := lt_of_mul_lt_mul_right smaller positive.le
      have notAbove : (4 * number.significand : ℚ) < 2 ^ (52 + 2) + 2 := by linarith
      have notAboveToo : 4 * number.significand < 2 ^ (52 + 2) + 2 := by exact_mod_cast notAbove
      simp only [exponentUnit] at *
      omega
    have one : number.quartersBelow = 1 := if_pos ⟨isUnit, isBiased⟩
    refine ⟨?_, isUnit, one, small⟩
    by_contra other
    have smaller : quotient < 2 ^ (number.scale + 51) :=
      lt_of_lt_of_le isScale.below (zpow_le_zpow_right₀ one_le_two (by omega))
    have inQuarters := lt_of_mul_lt_mul_right (low.trans_lt (smaller.trans_eq (quarters 51)))
      positive.le
    rw [isUnit, one] at inQuarters
    norm_num [exponentUnit] at inQuarters
  · exact .inl same
  · exfalso
    have large : (2 : ℚ) ^ (number.scale + 53) ≤ quotient :=
      le_trans (zpow_le_zpow_right₀ one_le_two (by omega))
        (isScale.above.resolve_left (by omega))
    have inQuarters := le_of_mul_le_mul_right ((quarters 53).ge.trans (large.trans high)) positive
    have notBelow : 2 ^ (53 + 2) ≤ 4 * number.significand + 2 := by exact_mod_cast inQuarters
    simp only [exponentUnit] at below
    omega

/-- Measured at its scale, what an interval covers has the bits of the number below the sign. -/
theorem nearest_of_covers {scale : Int} (isScale : ScaleFor quotient scale)
    {numerator denominator : Nat} (positive : 0 < denominator)
    (isQuotient : quotient = numerator / denominator) :
    (scale + 1074).toNat * exponentUnit +
        divideNearest (numerator * (powerOfTwo scale).2) (denominator * (powerOfTwo scale).1) =
      number.bits.toNat % signUnit := by
  have parts := number.parts
  obtain ⟨low, high⟩ := quarters_of_covers notZero covers
  have inside := covers.inside
  rw [low_roundingInterval notZero, high_roundingInterval] at inside
  rw [parts.magnitude]
  have positiveQuarter : (0 : ℚ) < 2 ^ (number.scale - 2) := zpow_pos two_pos _
  rcases scale_of_covers notZero covers isScale with rfl | ⟨rfl, isUnit, one, small⟩
  · have few := number.quartersBelow_le_two
    have unit : (2 : ℚ) ^ number.scale = 4 * 2 ^ (number.scale - 2) := by
      have quarters := zpow_eq_quarters number.scale 0
      norm_num at quarters
      exact quarters
    generalize (2 : ℚ) ^ (number.scale - 2) = quarter at *
    have fewQuarters := mul_le_mul_of_nonneg_right few positiveQuarter.le
    refine congrArg _ (divideNearest_of_near positive ?_ ?_ ?_)
    · rw [← isQuotient, unit]
      linarith
    · rw [← isQuotient, unit]
      linarith
    · -- A half to one side is an end of the interval, and covered only if it is closed.
      rw [← isQuotient, unit]
      intro half
      by_contra odd
      obtain ⟨notLow, notHigh⟩ := inside (by simpa [roundingInterval] using odd)
      rcases half with atLow | atHigh
      · exact notLow (le_antisymm low (by linarith))
      · exact notHigh (by linarith)
  · have unit : (2 : ℚ) ^ (number.scale - 1) = 2 * 2 ^ (number.scale - 2) := by
      rw [← zpow_one_add₀ two_ne_zero]
      congr 1
      omega
    have below := small.trans_eq (zpow_eq_quarters number.scale 52)
    generalize (2 : ℚ) ^ (number.scale - 2) = quarter at *
    rw [isUnit, one] at low
    have isNearest : divideNearest (numerator * (powerOfTwo (number.scale - 1)).2)
        (denominator * (powerOfTwo (number.scale - 1)).1) = 2 * exponentUnit := by
      refine divideNearest_of_near positive ?_ ?_ (fun _ => by decide) <;>
        rw [← isQuotient, unit] <;> norm_num [exponentUnit] at low below ⊢ <;> linarith
    have least := isScale.least
    rw [isNearest, isUnit]
    simp only [exponentUnit]
    omega

end Nearest

section Ratio

variable {number : Binary64} (notZero : number.significand ≠ 0)

include notZero

theorem pos_of_covers {quotient : ℚ} (covers : number.roundingInterval.Covers quotient) :
    (2 : ℚ) ^ (-1075 : Int) ≤ quotient ∧ quotient < 2 ^ (1024 : Int) := by
  obtain ⟨below, notAbove, least, -⟩ := number.parts
  obtain ⟨low, high⟩ := quarters_of_covers notZero covers
  have few := number.quartersBelow_le_two
  have some : (1 : ℚ) ≤ number.significand := by exact_mod_cast Nat.pos_of_ne_zero notZero
  have significant : (number.significand : ℚ) + 1 ≤ 2 ^ 53 := by
    have notAbove : number.significand + 1 ≤ 2 ^ 53 := below
    exact_mod_cast notAbove
  constructor
  · calc (2 : ℚ) ^ (-1075 : Int) = 2 * 2 ^ (-1076 : Int) := by
          rw [← zpow_one_add₀ two_ne_zero]
          rfl
      _ ≤ (4 * number.significand - number.quartersBelow) * 2 ^ (number.scale - 2) := by
          have quarter := zpow_le_zpow_right₀ (one_le_two (α := ℚ))
            (show (-1076 : Int) ≤ number.scale - 2 by omega)
          exact mul_le_mul (by linarith) quarter (zpow_pos two_pos _).le (by linarith)
      _ ≤ quotient := low
  · calc quotient ≤ (4 * number.significand + 2) * 2 ^ (number.scale - 2) := high
      _ < 2 ^ 55 * 2 ^ (number.scale - 2) := by
          gcongr
          linarith
      _ = 2 ^ (number.scale + 53) := (zpow_eq_quarters number.scale 53).symm
      _ ≤ 2 ^ (1024 : Int) := zpow_le_zpow_right₀ one_le_two (by omega)

/-- What an interval covers is rounded to the number of the interval. -/
theorem ofRatio?_of_covers {numerator denominator : Nat} (positive : 0 < denominator)
    (covers : number.roundingInterval.Covers (numerator / denominator)) :
    ofRatio? number.isNegative numerator denominator = some number := by
  have numeratorNotZero : numerator ≠ 0 := by
    rintro rfl
    have positive := (zpow_pos two_pos _).trans_le (pos_of_covers notZero covers).1
    simp at positive
  obtain ⟨scale, isScale, isNearest⟩ := exists_scaleFor numeratorNotZero positive
  rw [ofRatio?, if_neg numeratorNotZero, isNearest,
    nearest_of_covers notZero covers isScale positive rfl, ofMagnitude?_eq]

end Ratio

end Binary64

end LivePage
