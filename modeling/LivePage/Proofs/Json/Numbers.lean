import LivePage.Proofs.Json.NumberExtent
import LivePage.Proofs.Text.Encoding

/-!
Contract: numbers come back from their JSON text.

Owns:
- integers of the 64 bit ranges are read back;
- a floating point number that its own text gives back is read back in front
  of anything that ends a number;
- the bytes in which a number is written.

Does not own: which floating point numbers their text gives back.
-/

namespace LivePage.Json

open Text (encodeUtf8)

/-! ## Integers -/

private theorem isDigitByte_of_isDigit {char : Char} (isDigit : char.isDigit = true) :
    isDigitByte char.toUInt8 = true ∧ digitOf char.toUInt8 = char.toNat - '0'.toNat ∧
      char.toNat < 128 := by
  simp only [Char.isDigit, Bool.and_eq_true, decide_eq_true_eq, UInt32.le_iff_toNat_le] at isDigit
  have low : 48 ≤ char.toNat := isDigit.1
  have high : char.toNat ≤ 57 := isDigit.2
  have same : char.toUInt8.toNat = char.toNat := Text.toNat_toUInt8_of_ascii (by omega)
  refine ⟨?_, ?_, by omega⟩
  · simp only [isDigitByte, Bool.and_eq_true, decide_eq_true_eq, UInt8.le_iff_toNat_le, same]
    exact ⟨low, high⟩
  · rw [digitOf, same]
    rfl

private theorem le_ofDigitChars (digits : List Char) (significand : Nat) :
    significand ≤ Nat.ofDigitChars 10 digits significand := by
  induction digits generalizing significand with
  | nil => exact Nat.le_refl _
  | cons digit more inductionHypothesis =>
      rw [Nat.ofDigitChars_cons]
      exact Nat.le_trans (by omega) (inductionHypothesis _)

theorem readDigits_digits {negative : Bool} {digits : List Char}
    (areDigits : ∀ digit ∈ digits, digit.isDigit = true) {significand : Nat}
    (fits : Nat.ofDigitChars 10 digits significand ≤ greatestNat64) {rest : Bytes}
    (ends : EndsNumber rest) :
    readDigits negative significand (digits.map Char.toUInt8 ++ rest) =
      readAfterInteger negative (Nat.ofDigitChars 10 digits significand) rest := by
  induction digits generalizing significand with
  | nil => exact readDigits_of_other fun byte first => (ends byte first).1
  | cons digit more inductionHypothesis =>
      obtain ⟨isDigit, sameDigit, -⟩ := isDigitByte_of_isDigit (areDigits digit List.mem_cons_self)
      rw [Nat.ofDigitChars_cons] at fits ⊢
      have inRange : ¬10 * significand + digitOf digit.toUInt8 > greatestNat64 := by
        rw [sameDigit]
        exact Nat.not_lt.mpr (Nat.le_trans (le_ofDigitChars more _) fits)
      rw [List.map_cons, List.cons_append, readDigits, if_pos isDigit, if_neg inRange, sameDigit]
      exact inductionHypothesis
        (fun other member => areDigits other (List.mem_cons_of_mem _ member)) fits

private theorem digitChar_ne_zero {value : Nat} (small : value < 10) (positive : 0 < value) :
    value.digitChar ≠ '0' := by
  revert value
  decide

/-- Only the text of zero starts with the digit zero. -/
private theorem toDigits_cases (value : Nat) :
    Nat.toDigits 10 value = ['0'] ∧ value = 0 ∨
      ∃ first more, Nat.toDigits 10 value = first :: more ∧ first ≠ '0' := by
  induction value using Nat.strongRecOn with
  | ind value inductionHypothesis =>
      by_cases small : value < 10
      · rw [Nat.toDigits_of_lt_base small]
        rcases Nat.eq_zero_or_pos value with rfl | positive
        · exact .inl ⟨rfl, rfl⟩
        · exact .inr ⟨_, [], rfl, digitChar_ne_zero small positive⟩
      · rw [Nat.toDigits_of_base_le (by decide) (Nat.le_of_not_lt small)]
        have ofFront := inductionHypothesis (value / 10) (by omega)
        rcases ofFront with ⟨-, isZero⟩ | ⟨first, more, same, nonzero⟩
        · omega
        · exact .inr ⟨first, more ++ [(value % 10).digitChar], by rw [same]; rfl, nonzero⟩

private theorem isDigit_of_mem_toDigits {value : Nat} :
    ∀ digit ∈ Nat.toDigits 10 value, digit.isDigit = true :=
  fun _ member => Nat.isDigit_of_mem_toDigits (by decide) (by decide) member

theorem encodeUtf8_toString_nat (value : Nat) :
    encodeUtf8 (toString value) = (Nat.toDigits 10 value).map Char.toUInt8 := by
  rw [Nat.toString_eq_ofList_toDigits]
  exact Text.encodeUtf8_of_ascii fun digit member =>
    (isDigitByte_of_isDigit (isDigit_of_mem_toDigits digit member)).2.2

private theorem encodeUtf8_toString_cons (value : Nat) :
    ∃ first more, encodeUtf8 (toString value) = first :: more ∧ isDigitByte first = true := by
  rw [encodeUtf8_toString_nat]
  cases same : Nat.toDigits 10 value with
  | nil => exact absurd same Nat.toDigits_ne_nil
  | cons first more =>
      have isDigit := isDigit_of_mem_toDigits first (same ▸ List.mem_cons_self)
      exact ⟨_, _, rfl, (isDigitByte_of_isDigit isDigit).1⟩

/-- A natural number of the 64 bit range is read back behind its sign. -/
theorem readNumber_toString (negative : Bool) {value : Nat} (fits : value ≤ greatestNat64)
    {rest : Bytes} (ends : EndsNumber rest) :
    readNumber negative (encodeUtf8 (toString value) ++ rest) =
      .ok (integerOf negative value, rest) := by
  have areDigits := @isDigit_of_mem_toDigits value
  rw [encodeUtf8_toString_nat, ← readAfterInteger_of_ends ends]
  rcases toDigits_cases value with ⟨same, isZero⟩ | ⟨first, more, same, nonzero⟩
  · rw [same, isZero]
    exact readNumber_zero fun byte isFirst => (ends byte isFirst).1
  · have whole : Nat.ofDigitChars 10 more (first.toNat - '0'.toNat) = value := by
      have := Nat.ofDigitChars_toDigits (n := value) (b := 10) (by decide) (by decide)
      rwa [same, Nat.ofDigitChars_cons, Nat.mul_zero, Nat.zero_add] at this
    rw [same] at areDigits ⊢
    obtain ⟨isDigit, sameDigit, ascii⟩ :=
      isDigitByte_of_isDigit (areDigits first List.mem_cons_self)
    have notZero : first.toUInt8 ≠ '0'.toUInt8 := by
      intro isZero
      have := congrArg UInt8.toNat isZero
      rw [Text.toNat_toUInt8_of_ascii ascii] at this
      exact nonzero (Char.toNat_inj.mp this)
    simp only [List.map_cons, List.cons_append, readNumber, if_neg notZero, if_pos isDigit,
      sameDigit]
    rw [readDigits_digits (fun other member => areDigits other (List.mem_cons_of_mem _ member))
      (whole.symm ▸ fits) ends, whole]

theorem readScalar_minus (bytes : Bytes) :
    readScalar ('-'.toUInt8 :: bytes) = readNumber true bytes := rfl

theorem readScalar_digit {byte : UInt8} (isDigit : isDigitByte byte = true) (rest : Bytes) :
    readScalar (byte :: rest) = readNumber false (byte :: rest) := by
  have isNot : ∀ char : Char, isDigitByte char.toUInt8 = false → byte ≠ char.toUInt8 := by
    rintro char noDigit rfl
    rw [isDigit] at noDigit
    cases noDigit
  simp only [readScalar, if_neg (isNot 'n' (by decide)), if_neg (isNot 't' (by decide)),
    if_neg (isNot 'f' (by decide)), if_neg (isNot '-' (by decide)), isDigit, if_true]

/-- An integer of the 64 bit ranges is read back. -/
theorem readScalar_int {value : Int} (least : leastInt64 ≤ value)
    (greatest : value ≤ Int.ofNat greatestNat64) {rest : Bytes} (ends : EndsNumber rest) :
    readScalar (encodeUtf8 (toString value) ++ rest) = .ok (.int value, rest) := by
  cases value with
  | ofNat value =>
      have fits : value ≤ greatestNat64 := Int.ofNat_le.mp greatest
      obtain ⟨first, more, same, isDigit⟩ := encodeUtf8_toString_cons value
      have read := readNumber_toString false fits ends
      show readScalar (encodeUtf8 (toString value) ++ rest) = _
      rw [same, List.cons_append] at read ⊢
      rw [readScalar_digit isDigit]
      exact read
  | negSucc value =>
      have fits : value + 1 ≤ 0x8000000000000000 := by
        have : leastInt64 = -0x8000000000000000 := rfl
        omega
      have sign : encodeUtf8 "-" = ['-'.toUInt8] := by decide +kernel
      show readScalar (encodeUtf8 ("-" ++ toString (value + 1)) ++ rest) = _
      rw [Text.encodeUtf8_append, sign, List.singleton_append, List.cons_append,
        readScalar_minus, readNumber_toString true (Nat.le_trans fits (by decide)) ends, integerOf,
        if_neg (by decide), if_pos ⟨Nat.succ_pos _, fits⟩]
      rfl

/-! ## Floating point numbers -/

private theorem isMinus_of_readScalar_float {byte : UInt8} {more rest : Bytes}
    {number : Binary64} (notDigit : ¬isDigitByte byte = true)
    (read : readScalar (byte :: more) = .ok (.float number, rest)) : byte = '-'.toUInt8 := by
  have noWord : ∀ {α : Type} {outcome : Except Fault α} {make : α → Json × Bytes},
      (∀ result, (make result).1 ≠ .float number) →
        outcome.map make ≠ .ok (.float number, rest) := by
    intro α outcome make other same
    cases outcome with
    | error fault => cases same
    | ok result => exact other result (congrArg Prod.fst (Except.ok.inj same))
  simp only [readScalar] at read
  split at read
  · exact absurd read (noWord (by simp))
  split at read
  · exact absurd read (noWord (by simp))
  split at read
  · exact absurd read (noWord (by simp))
  split at read
  · assumption
  split at read
  · exact absurd read (noWord (by simp))
  · cases read

/-- A floating point number is read from its own bytes alone. -/
theorem readScalar_float_local {bytes rest : Bytes} {number : Binary64}
    (read : readScalar bytes = .ok (.float number, rest)) :
    TakesFrom readScalar bytes (.float number) rest := by
  cases bytes with
  | nil => cases read
  | cons byte more =>
      by_cases isDigit : isDigitByte byte = true
      · rw [readScalar_digit isDigit] at read
        obtain ⟨taken, split, reads⟩ := readNumber_local false read
        cases taken with
        | nil => cases reads [] .nil
        | cons first others =>
            obtain ⟨rfl, -⟩ := List.cons.inj split
            exact ⟨_, split, fun other ends =>
              (readScalar_digit isDigit _).trans (reads other ends)⟩
      · obtain rfl := isMinus_of_readScalar_float isDigit read
        rw [readScalar_minus] at read
        exact (readNumber_local true read).cons readScalar_minus

/-- The characters of numbers. -/
def isNumberChar (char : Char) : Bool :=
  char.isDigit || char == '.' || char == 'e' || char == '+' || char == '-'

private theorem isNumberChar_of_isDigit {char : Char} (isDigit : char.isDigit = true) :
    isNumberChar char = true := by
  simp [isNumberChar, isDigit]

private theorem all_toDigits (value : Nat) :
    ∀ char ∈ Nat.toDigits 10 value, isNumberChar char = true :=
  fun char member => isNumberChar_of_isDigit (isDigit_of_mem_toDigits char member)

theorem all_toString (value : Int) :
    ∀ char ∈ (toString value).toList, isNumberChar char = true := by
  have digits : ∀ value : Nat, ∀ char ∈ (toString value).toList, isNumberChar char = true := by
    intro value
    rw [Nat.toString_eq_ofList_toDigits, String.toList_ofList]
    exact all_toDigits value
  cases value with
  | ofNat value => exact digits value
  | negSucc value =>
      show ∀ char ∈ ("-" ++ toString (value + 1)).toList, _
      rw [String.toList_append, List.forall_mem_append]
      exact ⟨List.all_eq_true.mp (by decide), digits _⟩

private theorem all_positional (decimal : Decimal) :
    ∀ char ∈ (decimal.positional ".0").toList, isNumberChar char = true := by
  have digits := all_toDigits decimal.digits
  have zeros : ∀ count, ∀ char ∈ (Decimal.zeros count).toList, isNumberChar char = true := by
    intro count char member
    rw [Decimal.zeros, String.toList_ofList] at member
    rw [List.eq_of_mem_replicate member]
    decide
  simp only [Decimal.positional]
  split
  · simp only [String.toList_append, String.toList_ofList, List.forall_mem_append]
    exact ⟨⟨digits, zeros _⟩, List.all_eq_true.mp (by decide)⟩
  split
  · simp only [String.toList_append, String.toList_ofList, List.forall_mem_append]
    exact ⟨⟨fun char member => digits char (List.mem_of_mem_take member),
        List.all_eq_true.mp (by decide)⟩,
      fun char member => digits char (List.mem_of_mem_drop member)⟩
  · simp only [String.toList_append, String.toList_ofList, List.forall_mem_append]
    exact ⟨⟨List.all_eq_true.mp (by decide), zeros _⟩, digits⟩

private theorem all_scientific (decimal : Decimal) :
    ∀ char ∈ decimal.scientific.toList, isNumberChar char = true := by
  have digits := all_toDigits decimal.digits
  have sign : ∀ exponent : Int, ∀ char ∈ (if exponent < 0 then "-" else "+").toList,
      isNumberChar char = true := by
    intro exponent
    split <;> exact List.all_eq_true.mp (by decide)
  simp only [Decimal.scientific, String.toList_append, List.forall_mem_append,
    String.toList_ofList]
  refine ⟨⟨⟨⟨fun char member => digits char (List.mem_of_mem_take member), ?_⟩,
    List.all_eq_true.mp (by decide)⟩, sign _⟩, all_toString (Int.ofNat _)⟩
  split
  · simp
  · simp only [String.toList_append, String.toList_ofList, List.forall_mem_append]
    exact ⟨List.all_eq_true.mp (by decide),
      fun char member => digits char (List.mem_of_mem_drop member)⟩

theorem all_jsonText (number : Binary64) :
    ∀ char ∈ number.jsonText.toList, isNumberChar char = true := by
  have sign : ∀ char ∈ number.signText.toList, isNumberChar char = true := by
    unfold Binary64.signText
    split <;> exact List.all_eq_true.mp (by decide)
  simp only [Binary64.jsonText]
  split
  · rw [String.toList_append, List.forall_mem_append]
    exact ⟨sign, List.all_eq_true.mp (by decide)⟩
  split
  · rw [String.toList_append, List.forall_mem_append]
    exact ⟨sign, all_positional _⟩
  · rw [String.toList_append, List.forall_mem_append]
    exact ⟨sign, all_scientific _⟩

/-- The bytes of numbers. -/
def numberBytes : Bytes :=
  "0123456789.e+-".toList.map Char.toUInt8

private theorem mem_numberChars {char : Char} (isNumber : isNumberChar char = true) :
    char ∈ "0123456789.e+-".toList := by
  simp only [isNumberChar, Bool.or_eq_true, beq_iff_eq] at isNumber
  rcases isNumber with (((isDigit | rfl) | rfl) | rfl) | rfl
  · simp only [Char.isDigit, Bool.and_eq_true, decide_eq_true_eq, UInt32.le_iff_toNat_le]
      at isDigit
    have low : 48 ≤ char.toNat := isDigit.1
    have high : char.toNat < 58 := Nat.lt_succ_of_le isDigit.2
    have all : ∀ code < 58, 48 ≤ code → Char.ofNat code ∈ "0123456789.e+-".toList := by
      decide +kernel
    have member := all char.toNat high low
    rwa [Char.ofNat_toNat] at member
  all_goals decide +kernel

theorem mem_numberBytes {text : String}
    (areNumberChars : ∀ char ∈ text.toList, isNumberChar char = true) {byte : UInt8}
    (member : byte ∈ encodeUtf8 text) : byte ∈ numberBytes := by
  have chars : ∀ char ∈ text.toList, char ∈ "0123456789.e+-".toList :=
    fun char inText => mem_numberChars (areNumberChars char inText)
  have ascii : "0123456789.e+-".toList.all (fun char => char.toNat < 128) = true := by
    decide +kernel
  have bytes := Text.encodeUtf8_of_ascii fun char inText =>
    of_decide_eq_true (List.all_eq_true.mp ascii char (chars char inText))
  rw [String.ofList_toList] at bytes
  rw [bytes, List.mem_map] at member
  obtain ⟨char, inText, rfl⟩ := member
  exact List.mem_map_of_mem (chars char inText)

theorem of_mem_numberBytes {byte : UInt8} (member : byte ∈ numberBytes) :
    isSpace byte = false ∧ byte ≠ ']'.toUInt8 ∧ byte ≠ '['.toUInt8 ∧ byte ≠ '\x7b'.toUInt8 ∧
      ¬byte < 0x20 := by
  have all : ∀ byte ∈ numberBytes, isSpace byte = false ∧ byte ≠ ']'.toUInt8 ∧
      byte ≠ '['.toUInt8 ∧ byte ≠ '\x7b'.toUInt8 ∧ ¬byte < 0x20 := by
    decide +kernel
  exact all byte member

theorem skipSpace_of_head {bytes : Bytes} (noSpace : ∀ byte ∈ bytes.head?, isSpace byte = false) :
    skipSpace bytes = bytes := by
  cases bytes with
  | nil => rfl
  | cons byte rest => exact List.dropWhile_cons_of_neg (by simp [noSpace byte rfl])

/-- Behind a value that starts a text, nothing but space follows. -/
theorem of_readText {text : String} {value : Json} (read : readText text = .ok value) :
    ∃ rest, readValue (stepsFor (encodeUtf8 text)) nestingLimit (encodeUtf8 text) =
        .ok (value, rest) ∧ skipSpace rest = [] := by
  simp only [readText, Json.read, readWithin] at read
  cases outcome : readValue (stepsFor (encodeUtf8 text)) nestingLimit (encodeUtf8 text) with
  | error fault => simp only [outcome] at read; cases read
  | ok result =>
      obtain ⟨found, rest⟩ := result
      simp only [outcome, readEnd] at read
      cases remaining : skipSpace rest with
      | nil =>
          simp only [remaining, Except.map] at read
          cases read
          exact ⟨rest, rfl, remaining⟩
      | cons byte more => simp only [remaining, failNext, Except.map] at read; cases read

/-- A value that does not start with a bracket is a scalar. -/
theorem readValue_scalar {byte : UInt8} (noSpace : isSpace byte = false)
    (noList : byte ≠ '['.toUInt8) (noObject : byte ≠ '\x7b'.toUInt8) (fuel limit : Nat)
    (rest : Bytes) :
    readValue (fuel + 1) limit (byte :: rest) = readScalar (byte :: rest) := by
  have start : skipSpace (byte :: rest) = byte :: rest :=
    skipSpace_of_head fun first isFirst => Option.some.inj isFirst ▸ noSpace
  simp only [readValue, start, if_neg noList, if_neg noObject]

/-- A floating point number that its text gives back is read back in front of
anything that ends a number. -/
theorem readScalar_float {number : Binary64}
    (readsBack : readText number.jsonText = .ok (.float number)) :
    ∀ rest, EndsNumber rest →
      readScalar (encodeUtf8 number.jsonText ++ rest) = .ok (.float number, rest) := by
  obtain ⟨rest, read, onlySpace⟩ := of_readText readsBack
  have inNumber : ∀ byte ∈ encodeUtf8 number.jsonText, byte ∈ numberBytes :=
    fun byte => mem_numberBytes (all_jsonText number)
  generalize encodeUtf8 number.jsonText = bytes at read inNumber ⊢
  cases bytes with
  | nil => cases read
  | cons first more =>
      obtain ⟨noSpace, -, noList, noObject, -⟩ :=
        of_mem_numberBytes (inNumber first List.mem_cons_self)
      rw [stepsFor, readValue_scalar noSpace noList noObject] at read
      obtain ⟨taken, split, reads⟩ := readScalar_float_local read
      have noneLeft : rest = [] := by
        rw [← onlySpace]
        refine (skipSpace_of_head fun byte isFirst => ?_).symm
        have member : byte ∈ first :: more := by
          rw [split]
          exact List.mem_append_right _ (List.mem_of_mem_head? isFirst)
        exact (of_mem_numberBytes (inNumber byte member)).1
      rw [noneLeft, List.append_nil] at split
      exact split ▸ reads

end LivePage.Json
