import LivePage.Proofs.Number.Decimals
import LivePage.Proofs.Number.Shortest
import LivePage.Proofs.Text.Ends

/-!
Contract: a number is read back from its display.

Owns:
- the digits of a decimal written without exponent, around its point;
- reading of such a text;
- every number is read back, the two zeros with their signs.

Does not own: the form of JSON texts.
-/

namespace LivePage

/-! ## Digits around a point -/

theorem placeValue_append (front back : List Char) :
    placeValue (front ++ back) = placeValue front * 10 ^ back.length + placeValue back := by
  rw [← digitsValue_eq]
  show Nat.ofDigitChars 10 (front ++ back) 0 = _
  rw [Nat.ofDigitChars, List.foldl_append]
  show Nat.ofDigitChars 10 back (digitsValue front) = _
  rw [ofDigitChars_eq, digitsValue_eq]

theorem placeValue_zeros (count : Nat) : placeValue (List.replicate count '0') = 0 := by
  induction count with
  | zero => rfl
  | succ count inductionHypothesis =>
      rw [List.replicate_succ, placeValue, inductionHypothesis]
      simp

/-- A text of digits, with digits behind a point or without a point. -/
structure Pointed (chars whole fraction : List Char) : Prop where
  written : chars = whole ∧ fraction = [] ∨ chars = whole ++ '.' :: fraction
  someWhole : whole ≠ []
  digits : ∀ digit ∈ whole ++ fraction, isDigit digit = true

theorem Pointed.digit_of_mem {chars whole fraction : List Char}
    (pointed : Pointed chars whole fraction) {char : Char} (member : char ∈ chars) :
    char = '.' ∨ isDigit char = true := by
  rcases pointed.written with ⟨rfl, rfl⟩ | rfl
  · exact .inr (pointed.digits char (List.mem_append_left _ member))
  · rcases List.mem_append.mp member with inWhole | behind
    · exact .inr (pointed.digits char (List.mem_append_left _ inWhole))
    · rcases List.mem_cons.mp behind with isPoint | inFraction
      · exact .inl isPoint
      · exact .inr (pointed.digits char (List.mem_append_right _ inFraction))

theorem Pointed.digit_of_head? {chars whole fraction : List Char}
    (pointed : Pointed chars whole fraction) {first : Char} (isFirst : chars.head? = some first) :
    isDigit first = true := by
  obtain ⟨digit, rest, rfl⟩ := List.exists_cons_of_ne_nil pointed.someWhole
  have isDigit := pointed.digits digit (by simp)
  rcases pointed.written with ⟨rfl, rfl⟩ | rfl
  · exact Option.some.inj isFirst ▸ isDigit
  · exact Option.some.inj isFirst ▸ isDigit

/-- Behind its sign, such a text is read as all of its digits and the number of those behind the
point. -/
theorem Pointed.read {chars unsigned whole fraction : List Char} {negative : Bool}
    (pointed : Pointed unsigned whole fraction) (split : splitSign chars = (negative, unsigned)) :
    readNumber? chars =
      Binary64.ofDecimal? negative (placeValue (whole ++ fraction)) (-fraction.length) := by
  have inWhole := fun digit member => pointed.digits digit (List.mem_append_left fraction member)
  have inFraction := fun digit member => pointed.digits digit (List.mem_append_right whole member)
  have someWhole : whole.isEmpty = false := by simpa using pointed.someWhole
  have noPoint : isDigit '.' = false := by decide
  rw [readNumber?, split]
  rcases pointed.written with ⟨rfl, rfl⟩ | rfl
  · have allWhole : unsigned.takeWhile isDigit = unsigned := List.takeWhile_eq_self_iff.mpr inWhole
    have noneLeft : unsigned.dropWhile isDigit = [] := List.dropWhile_eq_nil_iff.mpr inWhole
    simp [allWhole, noneLeft, someWhole, readExponent?, digitsValue_eq]
  · have allFraction : fraction.takeWhile isDigit = fraction :=
      List.takeWhile_eq_self_iff.mpr inFraction
    have noneLeft : fraction.dropWhile isDigit = [] := List.dropWhile_eq_nil_iff.mpr inFraction
    simp [List.takeWhile_append_of_pos inWhole, List.dropWhile_append_of_pos inWhole, noPoint,
      allFraction, noneLeft, someWhole, readExponent?, digitsValue_eq]

/-- What is written of a decimal without exponent has the value of the decimal. -/
theorem exists_pointed_positional (decimal : Decimal) :
    ∃ whole fraction, Pointed (decimal.positional "").toList whole fraction ∧
      (placeValue (whole ++ fraction) : ℚ) * 10 ^ (-fraction.length : Int) = decimal.value := by
  have areDigits : ∀ digit ∈ Nat.toDigits 10 decimal.digits, isDigit digit = true :=
    fun _ => isDigit_of_mem_toDigits
  have areZeros : ∀ count, ∀ digit ∈ List.replicate count '0', isDigit digit = true := by
    intro count digit member
    rw [List.eq_of_mem_replicate member]
    decide
  have some : Nat.toDigits 10 decimal.digits ≠ [] := Nat.toDigits_ne_nil
  have isPoint : decimal.pointPlace = (Nat.toDigits 10 decimal.digits).length + decimal.exponent :=
    rfl
  have isDigits := placeValue_toDigits decimal.digits
  unfold Decimal.positional
  simp only [Decimal.value]
  generalize Nat.toDigits 10 decimal.digits = digits at *
  split
  · next upward =>
      obtain ⟨places, isPlaces⟩ := Int.eq_ofNat_of_zero_le upward
      refine ⟨digits ++ List.replicate places '0', [], ⟨.inl ⟨?_, rfl⟩, ?_, ?_⟩, ?_⟩
      · simp [Decimal.zeros, isPlaces]
      · simp [some]
      · rw [List.append_nil]
        exact List.forall_mem_append.mpr ⟨areDigits, areZeros places⟩
      · rw [List.append_nil, placeValue_append, placeValue_zeros, isDigits, isPlaces]
        simp
  · next downward =>
      split
      · next inside =>
          refine ⟨digits.take decimal.pointPlace.toNat, digits.drop decimal.pointPlace.toNat,
            ⟨.inr (by simp), ?_, ?_⟩, ?_⟩
          · simp only [ne_eq, List.take_eq_nil_iff, some, or_false]
            omega
          · rwa [List.take_append_drop]
          · rw [List.take_append_drop, isDigits, List.length_drop]
            congr 2
            omega
      · next before =>
          refine ⟨['0'], List.replicate (-decimal.pointPlace).toNat '0' ++ digits,
            ⟨.inr (by simp [Decimal.zeros]), by simp, ?_⟩, ?_⟩
          · exact List.forall_mem_append.mpr ⟨areZeros 1,
              List.forall_mem_append.mpr ⟨areZeros _, areDigits⟩⟩
          · have isWhole : placeValue (['0'] ++ (List.replicate (-decimal.pointPlace).toNat '0' ++
                digits)) = decimal.digits := by
              rw [placeValue_append, placeValue_append, placeValue_zeros, isDigits]
              simp [placeValue]
            rw [isWhole, List.length_append, List.length_replicate]
            congr 2
            omega

namespace Binary64

theorem toList_displayText (number : Binary64) :
    number.displayText.toList =
      (if number.isNegative then ['-'] else []) ++ (number.shortest.positional "").toList := by
  rw [displayText, String.toList_append, signText]
  cases number.isNegative <;> rfl

theorem splitSign_displayText (number : Binary64) :
    splitSign number.displayText.toList =
      (number.isNegative, (number.shortest.positional "").toList) := by
  rw [toList_displayText]
  cases number.isNegative with
  | true => rfl
  | false =>
      obtain ⟨whole, fraction, pointed, -⟩ := exists_pointed_positional number.shortest
      exact splitSign_of_digit fun first isFirst =>
        (isDigit_iff.mp (pointed.digit_of_head? isFirst)).1

/-- A number is read back from its display. -/
theorem readNumber?_displayText (number : Binary64) :
    readNumber? number.displayText.toList = some number := by
  obtain ⟨whole, fraction, pointed, isValue⟩ := exists_pointed_positional number.shortest
  rw [pointed.read number.splitSign_displayText]
  by_cases isZero : number.significand = 0
  · have noDigits : placeValue (whole ++ fraction) = 0 := by
      have isShortest : number.shortest = ⟨0, 0⟩ := by simp [shortest, Binary64.isZero, isZero]
      rw [isShortest] at isValue
      simpa [Decimal.value] using isValue
    rw [noDigits, ofDecimal?, if_pos rfl, ← magnitude_of_zero isZero, ofMagnitude?_eq]
  · exact ofDecimal?_of_covers isZero (isValue ▸ covers_shortest isZero)

/-- There is no white space in a display. -/
theorem isBlank_of_mem_displayText {number : Binary64} {char : Char}
    (member : char ∈ number.displayText.toList) : Text.isBlank char = false := by
  obtain ⟨whole, fraction, pointed, -⟩ := exists_pointed_positional number.shortest
  rw [toList_displayText, List.mem_append] at member
  rcases member with inSign | inDigits
  · have isSign : char = '-' := by
      cases isNegative : number.isNegative <;> simp_all
    rw [isSign]
    decide
  · rcases pointed.digit_of_mem inDigits with rfl | isDigit
    · decide
    · exact isBlank_of_isDigit isDigit

end Binary64

end LivePage
