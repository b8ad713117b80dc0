import LivePage.Number.Binary64

/-!
Contract: the shortest decimal that reads back as a given number.

Owns:
- the search, over ever finer decimal grids, for the nearest grid point that
  lies among the reals that round to the number.

Does not own: where the point is written and what an exponent looks like.
-/

namespace LivePage

/-- A magnitude written as `digits * 10 ^ exponent`. -/
structure Decimal where
  digits : Nat
  exponent : Int
deriving DecidableEq, Repr

namespace Decimal

/-- Moves factors of ten from the digits to the exponent. -/
def stripZeros : Nat → Decimal → Decimal
  | 0, decimal => decimal
  | fuel + 1, decimal =>
      if decimal.digits ≠ 0 ∧ decimal.digits % 10 = 0 then
        stripZeros fuel ⟨decimal.digits / 10, decimal.exponent + 1⟩
      else decimal

end Decimal

namespace Binary64

/-- The reals that round to a number, as naturals over one denominator. -/
structure RoundingInterval where
  low : Nat
  value : Nat
  high : Nat
  denominator : Nat
  closed : Bool

/-- Half a unit on each side, a quarter below a power of two; the ends belong
to the interval exactly when the significand is even. -/
def roundingInterval (number : Binary64) : RoundingInterval :=
  let power := powerOfTwo (number.scale - 2)
  let quarter := power.1
  let centre := 4 * number.significand
  let below := if number.significand = exponentUnit ∧ number.biasedExponent > 1 then 1 else 2
  { low := (centre - below) * quarter
    value := centre * quarter
    high := (centre + 2) * quarter
    denominator := power.2
    closed := number.significand % 2 == 0 }

def RoundingInterval.contains (interval : RoundingInterval) (candidate unit : Nat) : Bool :=
  let point := candidate * unit
  if interval.closed then interval.low ≤ point && point ≤ interval.high
  else interval.low < point && point < interval.high

/-- The interval with all its ends measured in steps of `10 ^ exponent`, and
the length of one step. -/
def RoundingInterval.onGrid (interval : RoundingInterval) (exponent : Int) :
    RoundingInterval × Nat :=
  let finer := Nat.pow 10 (-exponent).toNat
  ({ interval with
      low := interval.low * finer
      value := interval.value * finer
      high := interval.high * finer },
    interval.denominator * Nat.pow 10 exponent.toNat)

/-- The grid point next to the value that reads back, if there is one. -/
def RoundingInterval.gridPoint? (interval : RoundingInterval) (exponent : Int) : Option Decimal :=
  let (scaled, unit) := interval.onGrid exponent
  let below := scaled.value / unit
  let above := below + 1
  let belowFits := scaled.contains below unit
  let aboveFits := scaled.contains above unit
  let belowDistance := scaled.value - below * unit
  let aboveDistance := above * unit - scaled.value
  let belowNearer := belowDistance < aboveDistance ||
    (belowDistance == aboveDistance && below % 2 == 0)
  if belowFits && (!aboveFits || belowNearer) then some ⟨below, exponent⟩
  else if aboveFits then some ⟨above, exponent⟩
  else none

/-- The greatest `e` with `10 ^ e` at most the value. -/
def RoundingInterval.magnitude (interval : RoundingInterval) : Int :=
  let binary := Int.ofNat interval.value.log2 - Int.ofNat interval.denominator.log2
  let estimate := binary * 30103 / 100000 - 1
  let atMost (exponent : Int) : Bool :=
    interval.denominator * Nat.pow 10 exponent.toNat ≤
      interval.value * Nat.pow 10 (-exponent).toNat
  if atMost (estimate + 2) then estimate + 2
  else if atMost (estimate + 1) then estimate + 1
  else estimate

/-- The coarsest grid with a fitting point, from the given number of digits on. -/
def RoundingInterval.search (interval : RoundingInterval) (magnitude : Int) : Nat → Nat → Decimal
  | _, 0 => ⟨0, 0⟩
  | places, fuel + 1 =>
      match interval.gridPoint? (magnitude + 1 - places) with
      | some decimal => decimal
      | none => interval.search magnitude (places + 1) fuel

/-- The decimal with the fewest digits that reads back as the number's
magnitude, the nearest of those. -/
def shortest (number : Binary64) : Decimal :=
  if number.isZero then ⟨0, 0⟩
  else
    let interval := number.roundingInterval
    (interval.search interval.magnitude 1 20).stripZeros 400

end Binary64

end LivePage
