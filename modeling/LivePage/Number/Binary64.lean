/-!
Contract: finite numbers of the 64 bit binary floating point format.

Owns:
- the finite values, with sign, significand and exponent;
- rounding of a quotient of naturals to the nearest value, ties to even;
- products and quotients, and decimals read to the nearest value.

Does not own: infinities and undefined values, which no caller stores; any
spelling of a number.
-/

namespace LivePage

/-- One in the lowest place of the exponent. -/
def Binary64.exponentUnit : Nat := 0x10000000000000

/-- One in the place of the sign. -/
def Binary64.signUnit : Nat := 0x8000000000000000

/-- A finite number, given by its 64 bits. -/
structure Binary64 where
  bits : UInt64
  finite : bits.toNat / Binary64.exponentUnit % 2048 ≠ 2047
deriving DecidableEq

namespace Binary64

def zero : Binary64 := ⟨0, by decide⟩

instance : Inhabited Binary64 := ⟨zero⟩

instance : Repr Binary64 := ⟨fun number _ => repr number.bits⟩

def isNegative (number : Binary64) : Bool :=
  number.bits.toNat / signUnit % 2 == 1

def biasedExponent (number : Binary64) : Nat :=
  number.bits.toNat / exponentUnit % 2048

/-- The integer of the value's form `significand * 2 ^ scale`. -/
def significand (number : Binary64) : Nat :=
  number.bits.toNat % exponentUnit + (if number.biasedExponent = 0 then 0 else exponentUnit)

/-- The exponent of the value's form `significand * 2 ^ scale`. -/
def scale (number : Binary64) : Int :=
  Int.ofNat (max number.biasedExponent 1) - 1075

def isZero (number : Binary64) : Bool :=
  number.significand == 0

/-- The value of a sign and the bits below it; none for those of no finite value. -/
def ofMagnitude? (negative : Bool) (magnitude : Nat) : Option Binary64 :=
  let bits := UInt64.ofNat (magnitude + if negative then signUnit else 0)
  if finite : magnitude < 2047 * exponentUnit ∧ bits.toNat / exponentUnit % 2048 ≠ 2047 then
    some ⟨bits, finite.2⟩
  else none

/-- The quotient of two naturals to the nearest natural, ties to even. -/
def divideNearest (numerator denominator : Nat) : Nat :=
  let quotient := numerator / denominator
  let twice := 2 * (numerator % denominator)
  if twice > denominator || (twice == denominator && quotient % 2 == 1) then quotient + 1
  else quotient

/-- A power of two as a pair of factors, one of which is one. -/
def powerOfTwo (exponent : Int) : Nat × Nat :=
  (Nat.pow 2 exponent.toNat, Nat.pow 2 (-exponent).toNat)

/-- The bits below the sign of the value nearest to a quotient of positive
naturals. Beyond the largest finite value they are those of no finite value. -/
def nearestMagnitude (numerator denominator : Nat) : Nat :=
  let estimate := max (Int.ofNat numerator.log2 - Int.ofNat denominator.log2 - 53) (-1074)
  let scaledAt (scale : Int) : Nat × Nat :=
    let power := powerOfTwo scale
    (numerator * power.2, denominator * power.1)
  let first := scaledAt estimate
  let scale := if first.1 / first.2 ≥ 2 * exponentUnit then estimate + 1 else estimate
  let chosen := scaledAt scale
  (scale + 1074).toNat * exponentUnit + divideNearest chosen.1 chosen.2

/-- The nearest value to a quotient of naturals; none when it is not finite. -/
def ofRatio? (negative : Bool) (numerator denominator : Nat) : Option Binary64 :=
  if numerator = 0 then ofMagnitude? negative 0
  else ofMagnitude? negative (nearestMagnitude numerator denominator)

/-- The nearest value to `digits * 10 ^ exponent`; none when it is not finite. -/
def ofDecimal? (negative : Bool) (digits : Nat) (exponent : Int) : Option Binary64 :=
  if digits = 0 then ofMagnitude? negative 0
  else
    let places := Int.ofNat (Nat.toDigits 10 digits).length
    if places + exponent > 400 then none
    else if places + exponent < -400 then ofMagnitude? negative 0
    else ofRatio? negative (digits * Nat.pow 10 exponent.toNat) (Nat.pow 10 (-exponent).toNat)

/-- The magnitude as a quotient of naturals. -/
def ratio (number : Binary64) : Nat × Nat :=
  let power := powerOfTwo number.scale
  (number.significand * power.1, power.2)

/-- The rounded product of magnitudes, with the sign of the first factor. -/
def scaleBy? (number factor : Binary64) : Option Binary64 :=
  let left := number.ratio
  let right := factor.ratio
  ofRatio? number.isNegative (left.1 * right.1) (left.2 * right.2)

/-- The rounded quotient of magnitudes, with the sign of the first operand. -/
def divideBy? (number divisor : Binary64) : Option Binary64 :=
  let left := number.ratio
  let right := divisor.ratio
  ofRatio? number.isNegative (left.1 * right.2) (left.2 * right.1)

def negate (number : Binary64) : Binary64 :=
  (ofMagnitude? (!number.isNegative) (number.bits.toNat % signUnit)).getD number

/-- Equality of values: the two zeros are equal. -/
def sameValue (left right : Binary64) : Bool :=
  left = right || (left.isZero && right.isZero)

end Binary64

end LivePage
