import LivePage.Number.Text
import LivePage.Text.Blank
import Mathlib.Tactic.Ring

/-!
Contract: integers and their spellings.

Owns:
- the value of a run of digits, each of which counts for its place;
- the texts that spell an integer, which are those that are read;
- an integer is read back from what is written of it.

Does not own: the white space around an integer.
-/

namespace LivePage

/-! ## Digits -/

/-- The value of digits by their places. -/
def placeValue : List Char → Nat
  | [] => 0
  | digit :: rest => (digit.toNat - '0'.toNat) * 10 ^ rest.length + placeValue rest

theorem ofDigitChars_eq (digits : List Char) (front : Nat) :
    Nat.ofDigitChars 10 digits front = front * 10 ^ digits.length + placeValue digits := by
  induction digits generalizing front with
  | nil => simp [placeValue]
  | cons digit rest inductionHypothesis =>
      rw [Nat.ofDigitChars_cons, inductionHypothesis, placeValue, List.length_cons, Nat.pow_succ]
      ring

theorem digitsValue_eq (digits : List Char) : digitsValue digits = placeValue digits := by
  have whole := ofDigitChars_eq digits 0
  rwa [Nat.zero_mul, Nat.zero_add] at whole

theorem placeValue_toDigits (value : Nat) : placeValue (Nat.toDigits 10 value) = value := by
  rw [← digitsValue_eq]
  exact Nat.ofDigitChars_toDigits (by decide) (by decide)

theorem isDigit_of_mem_toDigits {value : Nat} {digit : Char}
    (member : digit ∈ Nat.toDigits 10 value) : isDigit digit = true :=
  Nat.isDigit_of_mem_toDigits (by decide) (by decide) member

/-- As many digits are written as the size of a number asks for. -/
theorem length_toDigits_bounds {value : Nat} (positive : 0 < value) :
    10 ^ ((Nat.toDigits 10 value).length - 1) ≤ value ∧
      value < 10 ^ (Nat.toDigits 10 value).length := by
  induction value using Nat.strongRecOn with
  | ind value inductionHypothesis =>
      by_cases small : value < 10
      · rw [Nat.toDigits_of_lt_base small]
        exact ⟨positive, small⟩
      · have ofFront := inductionHypothesis (value / 10) (by omega) (by omega)
        have some : 0 < (Nat.toDigits 10 (value / 10)).length :=
          List.length_pos_iff.mpr Nat.toDigits_ne_nil
        rw [Nat.toDigits_of_base_le (by decide) (Nat.le_of_not_lt small), List.length_append,
          List.length_singleton, Nat.add_sub_cancel, Nat.pow_succ]
        generalize (Nat.toDigits 10 (value / 10)).length = places at *
        obtain ⟨places, rfl⟩ : ∃ fewer, places = fewer + 1 := ⟨places - 1, by omega⟩
        rw [Nat.add_sub_cancel, Nat.pow_succ] at ofFront
        rw [Nat.pow_succ]
        omega

/-! ## Signs -/

/-- Texts that spell an integer: a sign, if any, and one or more digits. -/
inductive SpellsInteger : List Char → Int → Prop
  | plain {digits : List Char} (some : digits ≠ [])
      (areDigits : ∀ digit ∈ digits, '0' ≤ digit ∧ digit ≤ '9') :
      SpellsInteger digits (placeValue digits)
  | plus {digits : List Char} (some : digits ≠ [])
      (areDigits : ∀ digit ∈ digits, '0' ≤ digit ∧ digit ≤ '9') :
      SpellsInteger ('+' :: digits) (placeValue digits)
  | minus {digits : List Char} (some : digits ≠ [])
      (areDigits : ∀ digit ∈ digits, '0' ≤ digit ∧ digit ≤ '9') :
      SpellsInteger ('-' :: digits) (-placeValue digits)

theorem isDigit_iff {char : Char} : isDigit char = true ↔ '0' ≤ char ∧ char ≤ '9' := by
  simp [isDigit]

theorem isBlank_of_isDigit {char : Char} (isDigit : isDigit char = true) :
    Text.isBlank char = false := by
  obtain ⟨low, high⟩ := isDigit_iff.mp isDigit
  have least : 48 ≤ char.toNat := low
  have greatest : char.toNat ≤ 57 := high
  simp [Text.isBlank]
  omega

/-- A text is split into a sign and the rest. -/
theorem splitSign_cases (chars : List Char) :
    (∃ rest, chars = '-' :: rest ∧ splitSign chars = (true, rest)) ∨
      (∃ rest, chars = '+' :: rest ∧ splitSign chars = (false, rest)) ∨
      (∀ sign, chars.head? = some sign → sign ≠ '-' ∧ sign ≠ '+') ∧
        splitSign chars = (false, chars) := by
  fun_cases splitSign chars with
  | case1 rest => exact .inl ⟨rest, rfl, rfl⟩
  | case2 rest => exact .inr (.inl ⟨rest, rfl, rfl⟩)
  | case3 chars noMinus noPlus =>
      refine .inr (.inr ⟨fun sign isFirst => ?_, rfl⟩)
      obtain ⟨rest, rfl⟩ := List.head?_eq_some_iff.mp isFirst
      exact ⟨fun isMinus => noMinus rest (by rw [isMinus]),
        fun isPlus => noPlus rest (by rw [isPlus])⟩

theorem splitSign_of_digit {chars : List Char}
    (isDigit : ∀ first, chars.head? = some first → '0' ≤ first) :
    splitSign chars = (false, chars) := by
  rcases splitSign_cases chars with ⟨rest, rfl, -⟩ | ⟨rest, rfl, -⟩ | ⟨-, same⟩
  · exact absurd (isDigit '-' rfl) (by decide)
  · exact absurd (isDigit '+' rfl) (by decide)
  · exact same

/-- Behind the sign there are one or more digits, or nothing is read. -/
theorem readInteger?_of_splitSign {chars digits : List Char} {negative : Bool}
    (split : splitSign chars = (negative, digits)) {value : Int} :
    readInteger? chars = some value ↔
      digits ≠ [] ∧ (∀ digit ∈ digits, '0' ≤ digit ∧ digit ≤ '9') ∧
        value = if negative then -(placeValue digits : Int) else placeValue digits := by
  rw [readInteger?, split]
  simp only [digitsValue_eq, Option.ite_none_left_eq_some, Bool.or_eq_true, List.isEmpty_iff,
    Bool.not_eq_true', List.all_eq_false, isDigit_iff, not_or, not_exists, Option.some.injEq]
  constructor
  · rintro ⟨⟨some, noOther⟩, rfl⟩
    exact ⟨some, fun digit member => by_contra fun other => noOther digit ⟨member, other⟩, rfl⟩
  · rintro ⟨some, areDigits, rfl⟩
    exact ⟨⟨some, fun digit ⟨member, other⟩ => other (areDigits digit member)⟩, rfl⟩

/-- Exactly the texts that spell an integer are read, to this integer. -/
theorem readInteger?_eq_some_iff {chars : List Char} {value : Int} :
    readInteger? chars = some value ↔ SpellsInteger chars value := by
  constructor
  · intro read
    rcases splitSign_cases chars with ⟨rest, rfl, split⟩ | ⟨rest, rfl, split⟩ | ⟨-, split⟩
    all_goals obtain ⟨some, areDigits, rfl⟩ := (readInteger?_of_splitSign split).mp read
    · exact .minus some areDigits
    · exact .plus some areDigits
    · exact .plain some areDigits
  · intro spells
    cases spells with
    | plain some areDigits =>
        have split := splitSign_of_digit fun first isFirst =>
          (areDigits first (List.mem_of_mem_head? isFirst)).1
        exact (readInteger?_of_splitSign split).mpr ⟨some, areDigits, rfl⟩
    | plus some areDigits => exact (readInteger?_of_splitSign rfl).mpr ⟨some, areDigits, rfl⟩
    | minus some areDigits => exact (readInteger?_of_splitSign rfl).mpr ⟨some, areDigits, rfl⟩

theorem readInt64?_eq_some_iff {chars : List Char} {value : Int} :
    readInt64? chars = some value ↔
      SpellsInteger chars value ∧ leastInt64 ≤ value ∧ value ≤ greatestInt64 := by
  rw [readInt64?, ← readInteger?_eq_some_iff]
  cases readInteger? chars with
  | none => simp
  | some found =>
      simp only [Option.ite_none_right_eq_some, Option.some.injEq]
      constructor
      · rintro ⟨inside, rfl⟩
        exact ⟨rfl, inside⟩
      · rintro ⟨rfl, inside⟩
        exact ⟨inside, rfl⟩

/-! ## What is written -/

theorem spellsInteger_toString (value : Int) : SpellsInteger (toString value).toList value := by
  have digits : ∀ value : Nat, (toString value).toList ≠ [] ∧
      (∀ digit ∈ (toString value).toList, '0' ≤ digit ∧ digit ≤ '9') ∧
      placeValue (toString value).toList = value := by
    intro value
    rw [Nat.toString_eq_ofList_toDigits, String.toList_ofList]
    exact ⟨Nat.toDigits_ne_nil, fun digit member => isDigit_iff.mp (isDigit_of_mem_toDigits member),
      placeValue_toDigits value⟩
  cases value with
  | ofNat value =>
      obtain ⟨some, areDigits, isValue⟩ := digits value
      have spells := SpellsInteger.plain some areDigits
      rwa [isValue] at spells
  | negSucc value =>
      obtain ⟨some, areDigits, isValue⟩ := digits (value + 1)
      have spells := SpellsInteger.minus some areDigits
      have written :
          (toString (Int.negSucc value)).toList = '-' :: (toString (value + 1)).toList := by
        show ("-" ++ toString (value + 1)).toList = _
        rw [String.toList_append]
        rfl
      rw [isValue] at spells
      rw [written]
      exact spells

/-- There is no white space in a spelling. -/
theorem SpellsInteger.isBlank_of_mem {chars : List Char} {value : Int}
    (spells : SpellsInteger chars value) {char : Char} (member : char ∈ chars) :
    Text.isBlank char = false := by
  cases spells with
  | plain some areDigits => exact isBlank_of_isDigit (isDigit_iff.mpr (areDigits char member))
  | plus some areDigits =>
      rcases List.mem_cons.mp member with rfl | inDigits
      · decide
      · exact isBlank_of_isDigit (isDigit_iff.mpr (areDigits char inDigits))
  | minus some areDigits =>
      rcases List.mem_cons.mp member with rfl | inDigits
      · decide
      · exact isBlank_of_isDigit (isDigit_iff.mpr (areDigits char inDigits))

end LivePage
