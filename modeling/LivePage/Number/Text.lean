import LivePage.Number.Shortest

/-!
Contract: spellings of numbers.

Owns:
- the two written forms of a `Binary64`: the one of JSON texts, with a point
  or an exponent in every number, and the plain one of displays;
- reading of signed integers and decimals from text.

Does not own: the grammar of numbers inside JSON texts.
-/

namespace LivePage

/-- The least and greatest integers of the signed 64 bit range, and the
greatest of the unsigned one. -/
def leastInt64 : Int := -0x8000000000000000

def greatestInt64 : Int := 0x7FFFFFFFFFFFFFFF

def greatestNat64 : Nat := 0xFFFFFFFFFFFFFFFF

namespace Decimal

def digitText (decimal : Decimal) : String :=
  String.ofList (Nat.toDigits 10 decimal.digits)

/-- The number of digits before the point; not positive for small fractions. -/
def pointPlace (decimal : Decimal) : Int :=
  Int.ofNat (Nat.toDigits 10 decimal.digits).length + decimal.exponent

def zeros (count : Nat) : String :=
  String.ofList (List.replicate count '0')

/-- Written without exponent; `whole` is appended to a value without fraction. -/
def positional (decimal : Decimal) (whole : String) : String :=
  let digits := Nat.toDigits 10 decimal.digits
  let point := decimal.pointPlace
  if 0 ≤ decimal.exponent then
    String.ofList digits ++ zeros decimal.exponent.toNat ++ whole
  else if 0 < point then
    String.ofList (digits.take point.toNat) ++ "." ++ String.ofList (digits.drop point.toNat)
  else "0." ++ zeros (-point).toNat ++ String.ofList digits

/-- Written with one digit before the point and a signed exponent. -/
def scientific (decimal : Decimal) : String :=
  let digits := Nat.toDigits 10 decimal.digits
  let exponent := decimal.pointPlace - 1
  let sign := if exponent < 0 then "-" else "+"
  let fraction :=
    match digits.drop 1 with
    | [] => ""
    | rest => "." ++ String.ofList rest
  String.ofList (digits.take 1) ++ fraction ++ "e" ++ sign ++ toString exponent.natAbs

end Decimal

namespace Binary64

def signText (number : Binary64) : String :=
  if number.isNegative then "-" else ""

/-- The form of JSON texts: shortest digits, positional from `1e-5` up to
below `1e16` and then always with a fraction, else with an exponent. -/
def jsonText (number : Binary64) : String :=
  let decimal := number.shortest
  if number.isZero then number.signText ++ "0.0"
  else if -5 < decimal.pointPlace ∧ decimal.pointPlace ≤ 16 then
    number.signText ++ decimal.positional ".0"
  else number.signText ++ decimal.scientific

/-- The form of displays: shortest digits, never an exponent. -/
def displayText (number : Binary64) : String :=
  number.signText ++ number.shortest.positional ""

end Binary64

def isDigit (char : Char) : Bool :=
  '0' ≤ char && char ≤ '9'

/-- The value of a run of decimal digits. -/
def digitsValue (digits : List Char) : Nat :=
  digits.foldl (fun value digit => 10 * value + (digit.toNat - '0'.toNat)) 0

/-- An optional sign and the rest. -/
def splitSign : List Char → Bool × List Char
  | '-' :: rest => (true, rest)
  | '+' :: rest => (false, rest)
  | chars => (false, chars)

/-- An optional sign and one or more digits, with any value. -/
def readInteger? (chars : List Char) : Option Int :=
  let (negative, digits) := splitSign chars
  if digits.isEmpty || !digits.all isDigit then none
  else some (if negative then -Int.ofNat (digitsValue digits) else Int.ofNat (digitsValue digits))

/-- An integer of the signed 64 bit range. -/
def readInt64? (chars : List Char) : Option Int :=
  match readInteger? chars with
  | some value => if leastInt64 ≤ value ∧ value ≤ greatestInt64 then some value else none
  | none => none

/-- One or more digits, after an optional plus sign, up to a bound. -/
def readNat? (bound : Nat) (chars : List Char) : Option Nat :=
  let digits :=
    match chars with
    | '+' :: rest => rest
    | _ => chars
  if digits.isEmpty || !digits.all isDigit then none
  else if digitsValue digits ≤ bound then some (digitsValue digits)
  else none

/-- The exponent part of a decimal: nothing, or `e` and a signed integer. -/
def readExponent? : List Char → Option Int
  | [] => some 0
  | mark :: rest => if mark = 'e' || mark = 'E' then readInteger? rest else none

/-- A finite decimal number: sign, digits with an optional point among or
around them, exponent. Rounded to nearest; none beyond the finite range. -/
def readNumber? (chars : List Char) : Option Binary64 :=
  let (negative, unsigned) := splitSign chars
  let whole := unsigned.takeWhile isDigit
  let afterWhole := unsigned.dropWhile isDigit
  let (fraction, afterFraction) :=
    match afterWhole with
    | '.' :: rest => (rest.takeWhile isDigit, rest.dropWhile isDigit)
    | _ => ([], afterWhole)
  if whole.isEmpty && fraction.isEmpty then none
  else
    match readExponent? afterFraction with
    | none => none
    | some exponent =>
        Binary64.ofDecimal? negative (digitsValue (whole ++ fraction))
          (exponent - Int.ofNat fraction.length)

end LivePage
