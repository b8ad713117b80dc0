import LivePage.Json.Reader
import LivePage.Proofs.Text.Encoding

/-!
Contract: strings come back from their JSON text.

Owns:
- what the reader makes of one escaped character, and of all of them;
- the string behind its opening quote, whatever stands behind the closing one;
- a JSON string is written without control characters.

Does not own: values other than strings.
-/

namespace LivePage.Json

open Text (encodeUtf8)

/-! ## Plain bytes -/

/-- Bytes that a string holds as they are. -/
def IsPlain (byte : UInt8) : Prop :=
  byte ≠ '"'.toUInt8 ∧ byte ≠ '\\'.toUInt8 ∧ ¬byte < 0x20

theorem readContent_plain {byte : UInt8} (plain : IsPlain byte) (fuel : Nat)
    (content rest : Bytes) :
    readContent (fuel + 1) content (byte :: rest) = readContent fuel (byte :: content) rest := by
  obtain ⟨notQuote, notBackslash, notControl⟩ := plain
  rw [readContent, if_neg notQuote, if_neg notBackslash, if_neg notControl]

theorem readContent_plain_run {run : Bytes} (plain : ∀ byte ∈ run, IsPlain byte) (fuel : Nat)
    (content rest : Bytes) :
    readContent (run.length + fuel) content (run ++ rest) =
      readContent fuel (run.reverse ++ content) rest := by
  induction run generalizing content with
  | nil => simp
  | cons byte more inductionHypothesis =>
      have morePlain : ∀ other ∈ more, IsPlain other :=
        fun other member => plain other (List.mem_cons_of_mem _ member)
      rw [List.length_cons, Nat.add_right_comm, List.cons_append,
        readContent_plain (plain byte List.mem_cons_self), inductionHypothesis morePlain]
      simp

/-! ## Escapes -/

theorem hexByte?_hexDigit {value : Nat} (small : value < 16) :
    hexByte? (Text.hexDigit value).toUInt8 = some value := by
  revert value
  decide

theorem hexDigit_printed {value : Nat} (small : value < 16) :
    (Text.hexDigit value).toNat < 128 ∧ ¬(Text.hexDigit value).toUInt8 < 0x20 := by
  revert value
  decide

theorem readEscape_control {char : Char} (control : char.toNat < 0x20) (rest : Bytes) :
    readEscape ('u'.toUInt8 :: '0'.toUInt8 :: '0'.toUInt8 ::
        (Text.hexDigit (char.toNat / 16)).toUInt8 ::
        (Text.hexDigit (char.toNat % 16)).toUInt8 :: rest) =
      .ok (String.utf8EncodeChar char, rest) := by
  have noShort : shortEscape? 'u'.toUInt8 = none := by decide
  have zero : hexByte? '0'.toUInt8 = some 0 := by decide
  have code : 4096 * 0 + 256 * 0 + 16 * (char.toNat / 16) + char.toNat % 16 = char.toNat := by
    omega
  simp only [readEscape, noShort, if_true, readUnicodeEscape, readFourDigits, zero,
    hexByte?_hexDigit (show char.toNat / 16 < 16 by omega),
    hexByte?_hexDigit (show char.toNat % 16 < 16 by omega), code]
  rw [if_neg (by omega), if_neg (by omega), encodeScalar, Char.ofNat_toNat,
    Text.encodeUtf8_singleton]

/-- What stands for a character between the quotes. -/
inductive EscapedAs (char : Char) (written : Bytes) : Prop where
  | plain (same : written = String.utf8EncodeChar char)
      (isPlain : ∀ byte ∈ written, IsPlain byte)
  | escape (after : Bytes) (same : written = '\\'.toUInt8 :: after)
      (printed : ∀ byte ∈ after, ¬byte < 0x20)
      (reads : ∀ rest, readEscape (after ++ rest) = .ok (String.utf8EncodeChar char, rest))

private theorem eq_of_toNat_eq {char : Char} {code : Nat} (same : char.toNat = code) :
    char = Char.ofNat code := by
  rw [← same, Char.ofNat_toNat]

private theorem isPlain_of_toNat {byte : UInt8} {char : Char} (same : byte.toNat = char.toNat)
    (notQuote : char ≠ '"') (notBackslash : char ≠ '\\') (notControl : ¬char.toNat < 0x20) :
    IsPlain byte := by
  refine ⟨?_, ?_, ?_⟩
  · rintro rfl
    exact notQuote (eq_of_toNat_eq same.symm)
  · rintro rfl
    exact notBackslash (eq_of_toNat_eq same.symm)
  · intro control
    exact notControl (same ▸ UInt8.lt_iff_toNat_lt.mp control)

private theorem isPlain_of_beyond {byte : UInt8} (beyond : 128 ≤ byte.toNat) : IsPlain byte := by
  refine ⟨?_, ?_, ?_⟩
  · rintro rfl
    exact absurd beyond (by decide)
  · rintro rfl
    exact absurd beyond (by decide)
  · intro control
    have := UInt8.lt_iff_toNat_lt.mp control
    exact absurd beyond (Nat.not_le.mpr (Nat.lt_trans this (by decide)))

/-- A character that needs no escape stands for itself. -/
private theorem escapedAs_toString {char : Char} (notQuote : char ≠ '"')
    (notBackslash : char ≠ '\\') (notControl : ¬char.toNat < 0x20) :
    EscapedAs char (encodeUtf8 char.toString) := by
  rw [Text.encodeUtf8_singleton]
  refine .plain rfl ?_
  intro byte member
  by_cases ascii : char.toNat < 128
  · rw [Text.utf8EncodeChar_of_ascii ascii, List.mem_singleton] at member
    subst member
    exact isPlain_of_toNat (Text.toNat_toUInt8_of_ascii ascii) notQuote notBackslash notControl
  · exact isPlain_of_beyond (Text.le_of_mem_utf8EncodeChar (Nat.le_of_not_lt ascii) member)

private theorem escapedAs_control {char : Char} (control : char.toNat < 0x20) :
    EscapedAs char (encodeUtf8 ("\\u00" ++
      String.ofList [Text.hexDigit (char.toNat / 16), Text.hexDigit (char.toNat % 16)])) := by
  have high := hexDigit_printed (show char.toNat / 16 < 16 by omega)
  have low := hexDigit_printed (show char.toNat % 16 < 16 by omega)
  have start : encodeUtf8 "\\u00" = ['\\'.toUInt8, 'u'.toUInt8, '0'.toUInt8, '0'.toUInt8] := by
    decide +kernel
  refine .escape ['u'.toUInt8, '0'.toUInt8, '0'.toUInt8,
    (Text.hexDigit (char.toNat / 16)).toUInt8, (Text.hexDigit (char.toNat % 16)).toUInt8]
    ?_ ?_ (readEscape_control control)
  · rw [Text.encodeUtf8_append, start, Text.encodeUtf8_of_ascii (by simp [high, low])]
    rfl
  · simp only [List.forall_mem_cons]
    exact ⟨by decide, by decide, by decide, high.2, low.2, by simp⟩

theorem escapedAs_escapedChar (char : Char) :
    EscapedAs char (encodeUtf8 (escapedChar char)) := by
  unfold escapedChar
  split
  · next isQuote =>
      subst isQuote
      exact .escape ['"'.toUInt8] (by decide +kernel) (List.forall_mem_singleton.mpr (by decide))
        (fun _ => rfl)
  split
  · next isBackslash =>
      subst isBackslash
      exact .escape ['\\'.toUInt8] (by decide +kernel) (List.forall_mem_singleton.mpr (by decide))
        (fun _ => rfl)
  split
  · next isBackspace =>
      rw [eq_of_toNat_eq isBackspace]
      exact .escape ['b'.toUInt8] (by decide +kernel) (List.forall_mem_singleton.mpr (by decide))
        (fun _ => rfl)
  split
  · next isFeed =>
      rw [eq_of_toNat_eq isFeed]
      exact .escape ['f'.toUInt8] (by decide +kernel) (List.forall_mem_singleton.mpr (by decide))
        (fun _ => rfl)
  split
  · next isBreak =>
      subst isBreak
      exact .escape ['n'.toUInt8] (by decide +kernel) (List.forall_mem_singleton.mpr (by decide))
        (fun _ => rfl)
  split
  · next isReturn =>
      subst isReturn
      exact .escape ['r'.toUInt8] (by decide +kernel) (List.forall_mem_singleton.mpr (by decide))
        (fun _ => rfl)
  split
  · next isTab =>
      subst isTab
      exact .escape ['t'.toUInt8] (by decide +kernel) (List.forall_mem_singleton.mpr (by decide))
        (fun _ => rfl)
  split
  · next control => exact escapedAs_control control
  · exact escapedAs_toString ‹_› ‹_› ‹_›

/-! ## Texts -/

/-- The reader takes the written form of a character in some number of steps. -/
theorem EscapedAs.readContent {char : Char} {written : Bytes} (escaped : EscapedAs char written) :
    ∃ steps ≤ written.length, ∀ fuel content rest,
      readContent (steps + fuel) content (written ++ rest) =
        readContent fuel ((String.utf8EncodeChar char).reverse ++ content) rest := by
  cases escaped with
  | plain same isPlain =>
      refine ⟨written.length, Nat.le_refl _, fun fuel content rest => ?_⟩
      rw [readContent_plain_run isPlain, same]
  | escape after same printed reads =>
      refine ⟨1, by simp [same], fun fuel content rest => ?_⟩
      have notQuote : '\\'.toUInt8 ≠ '"'.toUInt8 := by decide
      rw [Nat.add_comm, same, List.cons_append, Json.readContent, if_neg notQuote, if_pos rfl,
        reads rest]

/-- The bytes between the quotes. -/
def contentBytes (chars : List Char) : Bytes :=
  chars.flatMap (fun char => encodeUtf8 (escapedChar char))

theorem encodeUtf8_stringText (text : String) :
    encodeUtf8 (stringText text) =
      '"'.toUInt8 :: (contentBytes text.toList ++ ['"'.toUInt8]) := by
  have quote : encodeUtf8 "\"" = ['"'.toUInt8] := by decide +kernel
  rw [stringText, Text.encodeUtf8_append, Text.encodeUtf8_append, quote, Text.encodeUtf8_join,
    List.flatMap_map, contentBytes]
  rfl

theorem readContent_contentBytes (chars : List Char) :
    ∃ steps ≤ (contentBytes chars).length, ∀ fuel content rest,
      readContent (steps + fuel) content (contentBytes chars ++ rest) =
        readContent fuel ((chars.flatMap String.utf8EncodeChar).reverse ++ content) rest := by
  induction chars with
  | nil => exact ⟨0, Nat.zero_le _, fun fuel content rest => by simp [contentBytes]⟩
  | cons char more inductionHypothesis =>
      obtain ⟨first, firstFits, firstReads⟩ := (escapedAs_escapedChar char).readContent
      obtain ⟨others, othersFit, othersRead⟩ := inductionHypothesis
      have split : contentBytes (char :: more) =
          encodeUtf8 (escapedChar char) ++ contentBytes more := rfl
      refine ⟨first + others, ?_, fun fuel content rest => ?_⟩
      · rw [split, List.length_append]
        exact Nat.add_le_add firstFits othersFit
      · rw [split, List.append_assoc, Nat.add_assoc, firstReads, othersRead, List.flatMap_cons,
          List.reverse_append, List.append_assoc]

/-- A string is read back, whatever follows its closing quote. -/
theorem readString_contentBytes (text : String) (rest : Bytes) :
    readString (contentBytes text.toList ++ '"'.toUInt8 :: rest) = .ok (text, rest) := by
  obtain ⟨steps, fits, reads⟩ := readContent_contentBytes text.toList
  obtain ⟨spare, enough⟩ :=
    Nat.exists_eq_add_of_le (Nat.le_trans fits (Nat.le_add_right _ rest.length))
  have fuel : (contentBytes text.toList ++ '"'.toUInt8 :: rest).length + 1 =
      steps + (spare + 1 + 1) := by
    rw [List.length_append, List.length_cons]
    omega
  have content : readContent (steps + (spare + 1 + 1)) []
      (contentBytes text.toList ++ '"'.toUInt8 :: rest) = .ok (encodeUtf8 text, rest) := by
    rw [reads, readContent, if_pos rfl, List.append_nil, List.reverse_reverse,
      Text.encodeUtf8_eq]
  rw [readString, fuel, content]
  simp only [Text.decodeUtf8?_encodeUtf8]

/-! ## Control characters -/

private theorem EscapedAs.printed {char : Char} {written : Bytes}
    (escaped : EscapedAs char written) : ∀ byte ∈ written, ¬byte < 0x20 := by
  cases escaped with
  | plain same isPlain => exact fun byte member => (isPlain byte member).2.2
  | escape after same printed reads =>
      rw [same, List.forall_mem_cons]
      exact ⟨by decide, printed⟩

/-- A string is written without control characters. -/
theorem not_control_of_mem_stringText {text : String} {byte : UInt8}
    (member : byte ∈ encodeUtf8 (stringText text)) : ¬byte < 0x20 := by
  rw [encodeUtf8_stringText, List.mem_cons, List.mem_append, List.mem_singleton,
    contentBytes, List.mem_flatMap] at member
  rcases member with rfl | ⟨char, -, inChar⟩ | rfl
  · decide
  · exact (escapedAs_escapedChar char).printed byte inChar
  · decide

end LivePage.Json
