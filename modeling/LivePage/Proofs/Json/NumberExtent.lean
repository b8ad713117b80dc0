import LivePage.Json.Reader

/-!
Contract: where a number ends.

Owns:
- a number is read from its own bytes alone: what follows it changes nothing
  as long as it cannot continue the number.

Does not own: the written form of numbers.
-/

namespace LivePage.Json

/-! ## The end of a number -/

/-- What comes next cannot continue a number. -/
def EndsNumber (rest : Bytes) : Prop :=
  ∀ byte ∈ rest.head?,
    isDigitByte byte = false ∧ byte ≠ '.'.toUInt8 ∧ isExponentMark byte = false

theorem EndsNumber.nil : EndsNumber [] := by
  simp [EndsNumber]

theorem EndsNumber.dropDigits {other : Bytes} (ends : EndsNumber other) :
    other.dropWhile isDigitByte = other := by
  cases other with
  | nil => rfl
  | cons byte rest =>
      exact List.dropWhile_cons_of_neg (by simp [(ends byte rfl).1])

/-- The reader takes some bytes at the front, and takes the same for the same
value in front of anything that ends a number. -/
def TakesFrom (reader : Bytes → Reading Json) (bytes : Bytes) (value : Json) (rest : Bytes) :
    Prop :=
  ∃ taken, bytes = taken ++ rest ∧
    ∀ other, EndsNumber other → reader (taken ++ other) = .ok (value, other)

def IsLocal (reader : Bytes → Reading Json) : Prop :=
  ∀ {bytes value rest}, reader bytes = .ok (value, rest) → TakesFrom reader bytes value rest

theorem TakesFrom.stop {reader : Bytes → Reading Json} {bytes : Bytes} {value : Json}
    (reads : ∀ other, EndsNumber other → reader other = .ok (value, other)) :
    TakesFrom reader bytes value bytes :=
  ⟨[], rfl, reads⟩

theorem TakesFrom.cons {reader next : Bytes → Reading Json} {byte : UInt8} {bytes rest : Bytes}
    {value : Json} (takes : TakesFrom next bytes value rest)
    (step : ∀ more, reader (byte :: more) = next more) :
    TakesFrom reader (byte :: bytes) value rest := by
  obtain ⟨taken, rfl, reads⟩ := takes
  exact ⟨byte :: taken, rfl, fun other ends => (step _).trans (reads other ends)⟩

/-- It suffices that two readers agree in front of the same first byte and in
front of the end of a number. -/
theorem TakesFrom.agree {reader next : Bytes → Reading Json} {bytes rest : Bytes} {value : Json}
    (takes : TakesFrom next bytes value rest)
    (atStart : ∀ others, others.head? = bytes.head? → reader others = next others)
    (atEnd : ∀ other, EndsNumber other → reader other = next other) :
    TakesFrom reader bytes value rest := by
  obtain ⟨taken, split, reads⟩ := takes
  refine ⟨taken, split, fun other ends => ?_⟩
  rw [← reads other ends]
  cases taken with
  | nil => exact atEnd other ends
  | cons byte more => exact atStart _ (by simp [split])

/-- Digits that are passed over change nothing. -/
theorem TakesFrom.passDigits {reader : Bytes → Reading Json} {bytes rest : Bytes} {value : Json}
    (takes : TakesFrom reader (bytes.dropWhile isDigitByte) value rest) :
    TakesFrom (fun more => reader (more.dropWhile isDigitByte)) bytes value rest := by
  obtain ⟨taken, split, reads⟩ := takes
  refine ⟨bytes.takeWhile isDigitByte ++ taken, ?_, fun other ends => ?_⟩
  · rw [List.append_assoc, ← split, List.takeWhile_append_dropWhile]
  · have passed : ((bytes.takeWhile isDigitByte ++ taken) ++ other).dropWhile isDigitByte =
        taken ++ other := by
      rw [List.append_assoc, List.dropWhile_append_of_pos
        (fun byte member => List.all_eq_true.mp List.all_takeWhile byte member)]
      cases taken with
      | nil => exact ends.dropDigits
      | cons byte more =>
          have stops := List.head?_dropWhile_not isDigitByte bytes
          rw [split] at stops
          exact List.dropWhile_cons_of_neg (by simpa using stops)
    show reader _ = _
    rw [passed, reads other ends]

/-! ## Locality of the readers -/

theorem assemble_local {negative : Bool} {significand : Nat} {exponent : Int} {bytes rest : Bytes}
    {value : Json} (assembled : assemble negative significand exponent bytes = .ok (value, rest)) :
    rest = bytes ∧
      ∀ other, assemble negative significand exponent other = .ok (value, other) := by
  simp only [assemble] at assembled ⊢
  generalize scaleByTen 10 ((Binary64.ofRatio? false significand 1).getD .zero) exponent = scaled
    at assembled ⊢
  cases scaled with
  | none => cases assembled
  | some magnitude =>
      cases assembled
      exact ⟨rfl, fun other => rfl⟩

private theorem readExponentDigits_of_ends {negative positive : Bool} {significand : Nat}
    {start : Int} {exponent : Nat} {other : Bytes} (ends : EndsNumber other) :
    readExponentDigits negative positive significand start exponent other =
      assemble negative significand
        (if positive then start + exponent else start - exponent) other := by
  cases other with
  | nil => rw [readExponentDigits]
  | cons byte rest =>
      rw [readExponentDigits, if_neg (by simp [(ends byte rfl).1])]

theorem readExponentDigits_local (negative positive : Bool) (significand : Nat) (start : Int)
    (exponent : Nat) :
    IsLocal (readExponentDigits negative positive significand start exponent) := by
  intro bytes value rest read
  fun_induction readExponentDigits negative positive significand start exponent bytes with
  | case1 exponent =>
      obtain ⟨rfl, others⟩ := assemble_local read
      exact .stop fun other ends => (readExponentDigits_of_ends ends).trans (others other)
  | case2 => cases read
  | case3 exponent byte more isDigit tooLarge inRange =>
      cases read
      have passed : TakesFrom (fun more => .ok (.float (if negative then Binary64.zero.negate
          else .zero), more.dropWhile isDigitByte)) more _ _ :=
        .passDigits (.stop fun other ends => rfl)
      refine passed.cons fun others => ?_
      rw [readExponentDigits, if_pos isDigit, if_pos tooLarge, if_neg inRange]
  | case4 exponent byte more isDigit fits inductionHypothesis =>
      refine (inductionHypothesis read).cons fun others => ?_
      rw [readExponentDigits, if_pos isDigit, if_neg fits]
  | case5 exponent byte more notDigit =>
      obtain ⟨rfl, others⟩ := assemble_local read
      exact .stop fun other ends => (readExponentDigits_of_ends ends).trans (others other)

/-- An exponent without a sign of its own. -/
def readUnsigned (negative positive : Bool) (significand : Nat) (start : Int) :
    Bytes → Reading Json
  | [] => failHere .endInValue []
  | byte :: rest =>
      if isDigitByte byte then
        readExponentDigits negative positive significand start (digitOf byte) rest
      else failHere .invalidNumber rest

theorem readUnsigned_local (negative positive : Bool) (significand : Nat) (start : Int) :
    IsLocal (readUnsigned negative positive significand start) := by
  intro bytes value rest read
  cases bytes with
  | nil => cases read
  | cons byte more =>
      by_cases isDigit : isDigitByte byte = true
      · rw [readUnsigned, if_pos isDigit] at read
        refine (readExponentDigits_local _ _ _ _ _ read).cons fun others => ?_
        rw [readUnsigned, if_pos isDigit]
      · rw [readUnsigned, if_neg isDigit] at read
        cases read

private theorem readExponent_plus (negative : Bool) (significand : Nat) (start : Int)
    (more : Bytes) :
    readExponent negative significand start ('+'.toUInt8 :: more) =
      readUnsigned negative true significand start more := by
  cases more <;> rfl

private theorem readExponent_minus (negative : Bool) (significand : Nat) (start : Int)
    (more : Bytes) :
    readExponent negative significand start ('-'.toUInt8 :: more) =
      readUnsigned negative false significand start more := by
  cases more <;> rfl

private theorem readExponent_unsigned {byte : UInt8} (notPlus : byte ≠ '+'.toUInt8)
    (notMinus : byte ≠ '-'.toUInt8) (negative : Bool) (significand : Nat) (start : Int)
    (more : Bytes) :
    readExponent negative significand start (byte :: more) =
      readUnsigned negative true significand start (byte :: more) := by
  simp only [readExponent, if_neg notPlus, if_neg notMinus, readUnsigned]

theorem readExponent_local (negative : Bool) (significand : Nat) (start : Int) :
    IsLocal (readExponent negative significand start) := by
  intro bytes value rest read
  cases bytes with
  | nil => cases read
  | cons byte more =>
      by_cases isPlus : byte = '+'.toUInt8
      · subst isPlus
        rw [readExponent_plus] at read
        exact (readUnsigned_local _ _ _ _ read).cons (readExponent_plus _ _ _)
      by_cases isMinus : byte = '-'.toUInt8
      · subst isMinus
        rw [readExponent_minus] at read
        exact (readUnsigned_local _ _ _ _ read).cons (readExponent_minus _ _ _)
      by_cases isDigit : isDigitByte byte = true
      · have step := fun others => (readExponent_unsigned isPlus isMinus negative significand start
          others).trans (if_pos isDigit)
        rw [step] at read
        exact (readExponentDigits_local _ _ _ _ _ read).cons step
      · rw [readExponent_unsigned isPlus isMinus, readUnsigned, if_neg isDigit] at read
        cases read

private theorem finishNumber_of_ends {negative : Bool} {significand : Nat} {exponent : Int}
    {other : Bytes} (ends : EndsNumber other) :
    finishNumber negative significand exponent other =
      assemble negative significand exponent other := by
  cases other with
  | nil => rfl
  | cons byte rest => rw [finishNumber, if_neg (by simp [(ends byte rfl).2.2])]

theorem finishNumber_local (negative : Bool) (significand : Nat) (exponent : Int) :
    IsLocal (finishNumber negative significand exponent) := by
  intro bytes value rest read
  have stop : assemble negative significand exponent bytes = .ok (value, rest) →
      TakesFrom (finishNumber negative significand exponent) bytes value rest := by
    intro assembled
    obtain ⟨rfl, others⟩ := assemble_local assembled
    exact .stop fun other ends => (finishNumber_of_ends ends).trans (others other)
  cases bytes with
  | nil => exact stop read
  | cons byte more =>
      by_cases isMark : isExponentMark byte = true
      · have step := fun others : Bytes => show finishNumber negative significand exponent
          (byte :: others) = readExponent negative significand exponent others from if_pos isMark
        rw [step] at read
        exact (readExponent_local _ _ _ read).cons step
      · rw [finishNumber, if_neg isMark] at read
        exact stop read

private theorem readFraction_of_other {negative : Bool} {before : Int}
    {significand places : Nat} (isFraction : places ≠ 0) {other : Bytes}
    (noDigit : ∀ byte ∈ other.head?, isDigitByte byte = false) :
    readFraction negative before significand places other =
      finishNumber negative significand (before - places) other := by
  cases other with
  | nil => rw [readFraction, if_neg isFraction]
  | cons byte rest =>
      rw [readFraction, if_neg (by simp [noDigit byte rfl]), if_neg isFraction]

private theorem readFraction_takes {negative : Bool} {before : Int} {significand places : Nat}
    (isFraction : places ≠ 0) {bytes rest : Bytes} {value : Json}
    (noDigit : ∀ byte ∈ bytes.head?, isDigitByte byte = false)
    (read : finishNumber negative significand (before - places) bytes = .ok (value, rest)) :
    TakesFrom (readFraction negative before significand places) bytes value rest :=
  (finishNumber_local _ _ _ read).agree
    (fun _ sameStart => readFraction_of_other isFraction (sameStart ▸ noDigit))
    (fun _ ends => readFraction_of_other isFraction fun byte first => (ends byte first).1)

theorem readFraction_local (negative : Bool) (before : Int) (significand places : Nat) :
    IsLocal (readFraction negative before significand places) := by
  intro bytes value rest read
  fun_induction readFraction negative before significand places bytes with
  | case1 significand places byte more isDigit tooLarge =>
      refine (TakesFrom.passDigits (finishNumber_local _ _ _ read)).cons fun others => ?_
      rw [readFraction, if_pos isDigit, if_pos tooLarge]
  | case2 significand places byte more isDigit fits inductionHypothesis =>
      refine (inductionHypothesis read).cons fun others => ?_
      rw [readFraction, if_pos isDigit, if_neg fits]
  | case3 => cases read
  | case4 significand places byte more notDigit isFraction =>
      exact readFraction_takes isFraction (by simpa using notDigit) read
  | case5 => cases read
  | case6 significand places isFraction => exact readFraction_takes isFraction (by simp) read

private theorem readLongInteger_of_other {negative : Bool} {significand dropped : Nat}
    {other : Bytes}
    (noDigit : ∀ byte ∈ other.head?, isDigitByte byte = false ∧ byte ≠ '.'.toUInt8) :
    readLongInteger negative significand dropped other =
      finishNumber negative significand dropped other := by
  cases other with
  | nil => rw [readLongInteger]
  | cons byte rest =>
      rw [readLongInteger, if_neg (by simp [(noDigit byte rfl).1]), if_neg (noDigit byte rfl).2]

private theorem readLongInteger_takes {negative : Bool} {significand dropped : Nat}
    {bytes rest : Bytes} {value : Json}
    (noDigit : ∀ byte ∈ bytes.head?, isDigitByte byte = false ∧ byte ≠ '.'.toUInt8)
    (read : finishNumber negative significand dropped bytes = .ok (value, rest)) :
    TakesFrom (readLongInteger negative significand dropped) bytes value rest :=
  (finishNumber_local _ _ _ read).agree
    (fun _ sameStart => readLongInteger_of_other (sameStart ▸ noDigit))
    (fun _ ends => readLongInteger_of_other fun byte first =>
      ⟨(ends byte first).1, (ends byte first).2.1⟩)

theorem readLongInteger_local (negative : Bool) (significand dropped : Nat) :
    IsLocal (readLongInteger negative significand dropped) := by
  intro bytes value rest read
  fun_induction readLongInteger negative significand dropped bytes with
  | case1 dropped byte more isDigit inductionHypothesis =>
      refine (inductionHypothesis read).cons fun others => ?_
      rw [readLongInteger, if_pos isDigit]
  | case2 dropped more notDigit =>
      refine (readFraction_local _ _ _ _ read).cons fun others => ?_
      rw [readLongInteger, if_neg notDigit, if_pos rfl]
  | case3 dropped byte more notDigit notPoint =>
      exact readLongInteger_takes (by simpa using ⟨by simpa using notDigit, notPoint⟩) read
  | case4 dropped => exact readLongInteger_takes (by simp) read

/-- The value of an integer without fraction and exponent. -/
def integerOf (negative : Bool) (significand : Nat) : Json :=
  if !negative then .int (Int.ofNat significand)
  else if 0 < significand ∧ significand ≤ 0x8000000000000000 then .int (-Int.ofNat significand)
  else .float ((Binary64.ofRatio? true significand 1).getD .zero)

theorem readAfterInteger_of_ends {negative : Bool} {significand : Nat} {other : Bytes}
    (ends : EndsNumber other) :
    readAfterInteger negative significand other = .ok (integerOf negative significand, other) := by
  cases other with
  | nil => rfl
  | cons byte rest =>
      obtain ⟨-, notPoint, notMark⟩ := ends byte rfl
      simp only [readAfterInteger, if_neg notPoint, notMark, Bool.false_eq_true, if_false,
        integerOf]

theorem readAfterInteger_local (negative : Bool) (significand : Nat) :
    IsLocal (readAfterInteger negative significand) := by
  intro bytes value rest read
  cases bytes with
  | nil =>
      cases read
      exact .stop fun other ends => readAfterInteger_of_ends ends
  | cons byte more =>
      by_cases isPoint : byte = '.'.toUInt8
      · have step := fun others : Bytes => show readAfterInteger negative significand
          (byte :: others) = readFraction negative 0 significand 0 others from if_pos isPoint
        rw [step] at read
        exact (readFraction_local _ _ _ _ read).cons step
      by_cases isMark : isExponentMark byte = true
      · have step := fun others : Bytes => show readAfterInteger negative significand
          (byte :: others) = readExponent negative significand 0 others from
            (if_neg isPoint).trans (if_pos isMark)
        rw [step] at read
        exact (readExponent_local _ _ _ read).cons step
      · simp only [readAfterInteger, if_neg isPoint, if_neg isMark] at read
        cases read
        exact .stop fun other ends => readAfterInteger_of_ends ends

theorem readDigits_of_other {negative : Bool} {significand : Nat} {other : Bytes}
    (noDigit : ∀ byte ∈ other.head?, isDigitByte byte = false) :
    readDigits negative significand other = readAfterInteger negative significand other := by
  cases other with
  | nil => rw [readDigits]
  | cons byte rest => rw [readDigits, if_neg (by simp [noDigit byte rfl])]

private theorem readDigits_takes {negative : Bool} {significand : Nat} {bytes rest : Bytes}
    {value : Json} (noDigit : ∀ byte ∈ bytes.head?, isDigitByte byte = false)
    (read : readAfterInteger negative significand bytes = .ok (value, rest)) :
    TakesFrom (readDigits negative significand) bytes value rest :=
  (readAfterInteger_local _ _ read).agree
    (fun _ sameStart => readDigits_of_other (sameStart ▸ noDigit))
    (fun _ ends => readDigits_of_other fun byte first => (ends byte first).1)

theorem readDigits_local (negative : Bool) (significand : Nat) :
    IsLocal (readDigits negative significand) := by
  intro bytes value rest read
  fun_induction readDigits negative significand bytes with
  | case1 significand byte more isDigit tooLarge =>
      refine (readLongInteger_local _ _ _ read).cons fun others => ?_
      rw [readDigits, if_pos isDigit, if_pos tooLarge]
  | case2 significand byte more isDigit fits inductionHypothesis =>
      refine (inductionHypothesis read).cons fun others => ?_
      rw [readDigits, if_pos isDigit, if_neg fits]
  | case3 significand byte more notDigit =>
      exact readDigits_takes (by simpa using notDigit) read
  | case4 significand => exact readDigits_takes (by simp) read

theorem readNumber_zero {negative : Bool} {other : Bytes}
    (noDigit : ∀ byte ∈ other.head?, isDigitByte byte = false) :
    readNumber negative ('0'.toUInt8 :: other) = readAfterInteger negative 0 other := by
  cases other with
  | nil => rfl
  | cons byte rest =>
      simp only [readNumber, if_true, noDigit byte rfl, Bool.false_eq_true, if_false]

theorem readNumber_local (negative : Bool) : IsLocal (readNumber negative) := by
  intro bytes value rest read
  cases bytes with
  | nil => cases read
  | cons byte more =>
      by_cases isZero : byte = '0'.toUInt8
      · subst isZero
        have noDigit : ∀ next ∈ more.head?, isDigitByte next = false := by
          rintro next first
          obtain ⟨others, rfl⟩ := List.head?_eq_some_iff.mp first
          cases isDigit : isDigitByte next with
          | false => rfl
          | true => simp [readNumber, isDigit, failNext] at read
        rw [readNumber_zero noDigit] at read
        have takes : TakesFrom (fun others => readNumber negative ('0'.toUInt8 :: others))
            more value rest :=
          (readAfterInteger_local _ _ read).agree
            (fun _ sameStart => readNumber_zero (sameStart ▸ noDigit))
            (fun _ ends => readNumber_zero fun byte first => (ends byte first).1)
        exact takes.cons fun _ => rfl
      by_cases isDigit : isDigitByte byte = true
      · have step := fun others : Bytes => show readNumber negative (byte :: others) =
          readDigits negative (digitOf byte) others from (if_neg isZero).trans (if_pos isDigit)
        rw [step] at read
        exact (readDigits_local _ _ read).cons step
      · simp only [readNumber, if_neg isZero, if_neg isDigit] at read
        cases read

end LivePage.Json
