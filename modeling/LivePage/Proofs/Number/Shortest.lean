import LivePage.Proofs.Number.Rounding

/-!
Contract: the shortest decimal of a number lies in its interval.

Owns:
- points of a grid are measured exactly;
- a grid finer than a quarter of a unit has a point in the interval;
- the search starts at a magnitude that is not too large, and finds such a point.

Does not own: that no decimal with fewer digits would do.
-/

namespace LivePage

/-- The value of a decimal. -/
def Decimal.value (decimal : Decimal) : ℚ :=
  decimal.digits * 10 ^ decimal.exponent

namespace Binary64

namespace RoundingInterval

/-! ## Grids -/

section Grid

variable {interval : RoundingInterval} (positive : 0 < interval.denominator) (exponent : Int)

include positive

/-- Ends of an interval and points of a grid are compared in the same unit. -/
theorem le_grid_iff (place candidate : Nat) :
    (place * 10 ^ (-exponent).toNat ≤
        candidate * (interval.denominator * 10 ^ exponent.toNat) ↔
      (place : ℚ) / interval.denominator ≤ candidate * 10 ^ exponent) ∧
    (candidate * (interval.denominator * 10 ^ exponent.toNat) ≤
        place * 10 ^ (-exponent).toNat ↔
      (candidate * 10 ^ exponent : ℚ) ≤ place / interval.denominator) := by
  have positive' : (0 : ℚ) < interval.denominator := by exact_mod_cast positive
  have finer : (0 : ℚ) < (10 ^ (-exponent).toNat : Nat) := by
    exact_mod_cast Nat.pow_pos (by decide)
  have ratio := pow_toNat_div_pow_toNat 10 exponent
  rw [div_eq_iff finer.ne'] at ratio
  have first : ((place * 10 ^ (-exponent).toNat : Nat) : ℚ) =
      place / interval.denominator * (interval.denominator * (10 ^ (-exponent).toNat : Nat)) := by
    rw [Nat.cast_mul]
    field_simp
  have second : ((candidate * (interval.denominator * 10 ^ exponent.toNat) : Nat) : ℚ) =
      candidate * 10 ^ exponent * (interval.denominator * (10 ^ (-exponent).toNat : Nat)) := by
    rw [Nat.cast_mul, Nat.cast_mul, ratio]
    push_cast
    ring
  have common := mul_pos positive' finer
  rw [← Nat.cast_le (α := ℚ), ← Nat.cast_le (α := ℚ), first, second,
    mul_le_mul_iff_of_pos_right common, mul_le_mul_iff_of_pos_right common]
  exact ⟨Iff.rfl, Iff.rfl⟩

/-- A point is found on a grid exactly if the interval covers it. -/
theorem contains_onGrid_iff (candidate : Nat) :
    (interval.onGrid exponent).1.contains candidate (interval.onGrid exponent).2 = true ↔
      interval.Covers (candidate * 10 ^ exponent) := by
  obtain ⟨lowLe, leLow⟩ := le_grid_iff positive exponent interval.low candidate
  obtain ⟨highLe, leHigh⟩ := le_grid_iff positive exponent interval.high candidate
  have isLow : (interval.onGrid exponent).1.low = interval.low * 10 ^ (-exponent).toNat := rfl
  have isHigh : (interval.onGrid exponent).1.high = interval.high * 10 ^ (-exponent).toNat := rfl
  have isUnit : (interval.onGrid exponent).2 = interval.denominator * 10 ^ exponent.toNat := rfl
  have isClosed : (interval.onGrid exponent).1.closed = interval.closed := rfl
  rw [contains, isLow, isHigh, isUnit, isClosed]
  cases closed : interval.closed with
  | true =>
      simp only [if_true, Bool.and_eq_true, decide_eq_true_eq, lowLe, leHigh]
      constructor
      · rintro ⟨low, high⟩
        exact ⟨low, high, fun isOpen => absurd (closed.symm.trans isOpen) (by decide)⟩
      · exact fun covers => ⟨covers.low_le, covers.le_high⟩
  | false =>
      simp only [Bool.false_eq_true, if_false, Bool.and_eq_true, decide_eq_true_eq,
        ← Nat.not_le, leLow, highLe, not_le]
      constructor
      · rintro ⟨low, high⟩
        exact ⟨low.le, high.le, fun _ => ⟨low.ne, high.ne⟩⟩
      · intro covers
        obtain ⟨notLow, notHigh⟩ := covers.inside closed
        exact ⟨lt_of_le_of_ne covers.low_le notLow, lt_of_le_of_ne covers.le_high notHigh⟩

theorem covers_of_gridPoint? {decimal : Decimal}
    (found : interval.gridPoint? exponent = some decimal) : interval.Covers decimal.value := by
  have covers := fun candidate => (contains_onGrid_iff positive exponent candidate).mp
  unfold gridPoint? at found
  simp only at found
  split at found
  · next fits =>
      cases found
      rw [Bool.and_eq_true] at fits
      exact covers _ fits.1
  · split at found
    · next fits =>
        cases found
        exact covers _ fits
    · cases found

/-- If the point just below the value fits, then some point is chosen. -/
theorem exists_gridPoint? (covers : interval.Covers
    (((interval.onGrid exponent).1.value / (interval.onGrid exponent).2 : Nat) * 10 ^ exponent)) :
    ∃ decimal, interval.gridPoint? exponent = some decimal := by
  have fits := (contains_onGrid_iff positive exponent _).mpr covers
  unfold gridPoint?
  simp only [fits, Bool.true_and]
  split
  · exact ⟨_, rfl⟩
  · next notBelow =>
      rw [Bool.or_eq_true, not_or, Bool.not_eq_true', Bool.not_eq_false] at notBelow
      rw [if_pos notBelow.1]
      exact ⟨_, rfl⟩

end Grid

/-- The search ends at a point of some grid if one of the grids that it comes to has one. -/
theorem exists_gridPoint?_of_search {interval : RoundingInterval} {magnitude : Int}
    {places fuel further : Nat} (inside : further < fuel)
    (isThere : ∃ decimal, interval.gridPoint? (magnitude + 1 - (places + further : Nat)) =
      some decimal) :
    ∃ exponent, interval.gridPoint? exponent = some (interval.search magnitude places fuel) := by
  induction fuel generalizing places further with
  | zero => exact absurd inside (Nat.not_lt_zero _)
  | succ fuel inductionHypothesis =>
      rw [search]
      cases found : interval.gridPoint? (magnitude + 1 - places) with
      | some decimal => exact ⟨_, found⟩
      | none =>
          cases further with
          | zero =>
              obtain ⟨decimal, isPoint⟩ := isThere
              cases found.symm.trans isPoint
          | succ further =>
              have sameGrid : places + 1 + further = places + (further + 1) := by omega
              exact inductionHypothesis (Nat.lt_of_succ_lt_succ inside) (sameGrid ▸ isThere)

end RoundingInterval

/-! ## The interval of a number -/

theorem denominator_pos (number : Binary64) : 0 < number.roundingInterval.denominator :=
  (powerOfTwo_pos _).2

/-! The estimate of a logarithm is good enough for all magnitudes that there are. -/

private theorem ten_pow_le_two_pow : ∀ binary < 1100,
    10 ^ (binary * 30103 / 100000) ≤ 500 * 2 ^ binary := by
  decide +kernel

private theorem two_pow_le_ten_pow : ∀ binary < 1100,
    2 ^ binary ≤ 500 * 10 ^ ((binary * 30103 + 99999) / 100000) := by
  decide +kernel

private theorem ten_pow_estimate_le {binary : Int} (least : -1100 < binary)
    (greatest : binary < 1100) :
    (10 : ℚ) ^ (binary * 30103 / 100000 - 1) ≤ 100 * 2 ^ (binary - 1) := by
  rw [zpow_sub_one₀ (by norm_num), zpow_sub_one₀ (by norm_num)]
  suffices scaled : (10 : ℚ) ^ (binary * 30103 / 100000) ≤ 500 * 2 ^ binary by linarith
  rcases Int.le_total 0 binary with upward | downward
  · obtain ⟨places, rfl⟩ := Int.eq_ofNat_of_zero_le upward
    have checked := ten_pow_le_two_pow places (by omega)
    have sameEstimate : (places : Int) * 30103 / 100000 = (places * 30103 / 100000 : Nat) := by
      omega
    rw [sameEstimate, zpow_natCast, zpow_natCast]
    exact_mod_cast checked
  · obtain ⟨places, isPlaces⟩ := Int.eq_ofNat_of_zero_le (Int.neg_nonneg_of_nonpos downward)
    obtain rfl : binary = -places := by omega
    have checked := two_pow_le_ten_pow places (by omega)
    have sameEstimate : -(places : Int) * 30103 / 100000 =
        -((places * 30103 + 99999) / 100000 : Nat) := by
      omega
    rw [sameEstimate, zpow_neg, zpow_neg, zpow_natCast, zpow_natCast, ← div_eq_mul_inv, ← one_div,
      div_le_div_iff₀ (by positivity) (by positivity), one_mul]
    exact_mod_cast checked

section Interval

variable {number : Binary64} (notZero : number.significand ≠ 0)

include notZero

/-- What is less than a quarter of a unit below a number is covered, and so is the number. -/
theorem covers_of_near {quotient : ℚ}
    (notFar : (4 * number.significand - 1) * 2 ^ (number.scale - 2) < quotient)
    (notAbove : quotient ≤ 4 * number.significand * 2 ^ (number.scale - 2)) :
    number.roundingInterval.Covers quotient := by
  have some : 1 ≤ number.quartersBelow := by
    unfold quartersBelow
    split <;> decide
  have some' : (1 : ℚ) ≤ number.quartersBelow := by exact_mod_cast some
  have low :
      (number.roundingInterval.low : ℚ) / number.roundingInterval.denominator < quotient := by
    rw [low_roundingInterval notZero]
    refine lt_of_le_of_lt ?_ notFar
    gcongr
  have high : quotient < number.roundingInterval.high / number.roundingInterval.denominator := by
    rw [high_roundingInterval]
    refine lt_of_le_of_lt notAbove ?_
    gcongr
    linarith
  exact ⟨low.le, high.le, fun _ => ⟨low.ne, high.ne⟩⟩

/-- A grid that is no coarser than a quarter of a unit has a point in the interval. -/
theorem exists_gridPoint?_of_fine {exponent : Int}
    (fine : (10 : ℚ) ^ exponent ≤ 2 ^ (number.scale - 2)) :
    ∃ decimal, number.roundingInterval.gridPoint? exponent = some decimal := by
  have positive := number.denominator_pos
  have unitPos : 0 < (number.roundingInterval.onGrid exponent).2 :=
    Nat.mul_pos positive (Nat.pow_pos (by decide))
  have compare := fun candidate => (RoundingInterval.le_grid_iff positive exponent
    number.roundingInterval.value candidate).2
  simp only [value_roundingInterval] at compare
  have below := Nat.div_mul_le_self (number.roundingInterval.onGrid exponent).1.value
    (number.roundingInterval.onGrid exponent).2
  have above : (number.roundingInterval.onGrid exponent).1.value <
      ((number.roundingInterval.onGrid exponent).1.value /
        (number.roundingInterval.onGrid exponent).2 + 1) *
          (number.roundingInterval.onGrid exponent).2 :=
    Nat.lt_mul_of_div_lt (Nat.lt_succ_self _) unitPos
  refine RoundingInterval.exists_gridPoint? positive exponent (covers_of_near notZero ?_ ?_)
  · have next := mt (compare _).mpr (Nat.not_le.mpr above)
    push_cast at next
    linarith
  · exact (compare _).mp below

/-- The magnitude of an interval is at most two places too large. -/
theorem ten_pow_magnitude_le :
    (10 : ℚ) ^ number.roundingInterval.magnitude ≤
      100 * (4 * number.significand * 2 ^ (number.scale - 2)) := by
  have positive := number.denominator_pos
  have isValue := value_roundingInterval number
  have quarter : (0 : ℚ) < 2 ^ (number.scale - 2) := zpow_pos two_pos _
  have valuePos : (0 : ℚ) < 4 * number.significand * 2 ^ (number.scale - 2) := by positivity
  have own : number.roundingInterval.Covers
      (4 * number.significand * 2 ^ (number.scale - 2)) :=
    covers_of_near notZero (by linarith) (le_refl _)
  obtain ⟨lower, upper⟩ := pos_of_covers notZero own
  have valueNotZero : number.roundingInterval.value ≠ 0 := by
    intro isZero
    rw [isZero, Nat.cast_zero, zero_div] at isValue
    exact valuePos.ne isValue
  obtain ⟨least, greatest⟩ := quotient_bounds valueNotZero positive
  rw [isValue] at least greatest
  have atMost := fun exponent => (RoundingInterval.le_grid_iff positive exponent
    number.roundingInterval.value 1).2
  simp only [isValue, Nat.cast_one, one_mul] at atMost
  unfold RoundingInterval.magnitude
  simp only [Int.ofNat_eq_natCast]
  generalize (number.roundingInterval.value.log2 : Int) - number.roundingInterval.denominator.log2 =
    binary at *
  generalize (4 * number.significand * 2 ^ (number.scale - 2) : ℚ) = value at *
  have checked : ∀ exponent, number.roundingInterval.denominator * Nat.pow 10 exponent.toNat ≤
      number.roundingInterval.value * Nat.pow 10 (-exponent).toNat →
        (10 : ℚ) ^ exponent ≤ 100 * value := by
    intro exponent fits
    have notAbove := (atMost exponent).mp fits
    linarith
  split
  · next fits => exact checked _ (of_decide_eq_true fits)
  · split
    · next fits => exact checked _ (of_decide_eq_true fits)
    · have notHuge := (zpow_lt_zpow_iff_right₀ (one_lt_two (α := ℚ))).mp (least.trans_lt upper)
      have notTiny := (zpow_lt_zpow_iff_right₀ (one_lt_two (α := ℚ))).mp (lower.trans_lt greatest)
      have estimated := @ten_pow_estimate_le binary (by omega) (by omega)
      linarith

end Interval

/-- Moving zeros to the exponent does not change the value. -/
theorem value_stripZeros (fuel : Nat) (decimal : Decimal) :
    (decimal.stripZeros fuel).value = decimal.value := by
  induction fuel generalizing decimal with
  | zero => rfl
  | succ fuel inductionHypothesis =>
      unfold Decimal.stripZeros
      split
      · next zeroLast =>
          obtain ⟨tens, isTens⟩ := Nat.dvd_of_mod_eq_zero zeroLast.2
          rw [inductionHypothesis, Decimal.value, Decimal.value, isTens,
            Nat.mul_div_cancel_left _ (by decide), zpow_add_one₀ (by norm_num)]
          push_cast
          ring
      · rfl

/-- The shortest decimal of a number lies in the interval of the number. -/
theorem covers_shortest {number : Binary64} (notZero : number.significand ≠ 0) :
    number.roundingInterval.Covers number.shortest.value := by
  have magnitude := ten_pow_magnitude_le notZero
  have isFine : (10 : ℚ) ^ (number.roundingInterval.magnitude - 19) ≤ 2 ^ (number.scale - 2) := by
    have below : number.significand < 2 ^ 53 := number.parts.significand_lt
    have significant : (number.significand : ℚ) < 2 ^ 53 := by exact_mod_cast below
    have quarter : (0 : ℚ) < 2 ^ (number.scale - 2) := zpow_pos two_pos _
    rw [zpow_sub₀ (by norm_num), div_le_iff₀ (by positivity), mul_comm (2 ^ (number.scale - 2) : ℚ)]
    calc (10 : ℚ) ^ number.roundingInterval.magnitude
        ≤ 100 * (4 * number.significand) * 2 ^ (number.scale - 2) := by
          rwa [mul_assoc]
      _ ≤ 10 ^ (19 : Int) * 2 ^ (number.scale - 2) := by
          refine mul_le_mul_of_nonneg_right ?_ quarter.le
          linarith
  obtain ⟨exponent, isPoint⟩ : ∃ exponent, number.roundingInterval.gridPoint? exponent =
      some (number.roundingInterval.search number.roundingInterval.magnitude 1 20) := by
    refine RoundingInterval.exists_gridPoint?_of_search (show 19 < 20 by decide) ?_
    have sameGrid : number.roundingInterval.magnitude + 1 - (1 + 19 : Nat) =
        number.roundingInterval.magnitude - 19 := by
      omega
    rw [sameGrid]
    exact exists_gridPoint?_of_fine notZero isFine
  have notZero' : number.isZero = false := by simpa [isZero] using notZero
  rw [shortest, notZero', if_neg Bool.false_ne_true, value_stripZeros]
  exact RoundingInterval.covers_of_gridPoint? number.denominator_pos exponent isPoint

end Binary64

end LivePage
