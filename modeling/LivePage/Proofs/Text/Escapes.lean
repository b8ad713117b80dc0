import LivePage.Proofs.Text.Encoding
import LivePage.Text.Percent

/-!
Contract: percent escapes are undone by decoding.

Owns:
- the bytes of an escaped text;
- decoding gives back what was escaped, in front of anything.

Does not own: which parts of a location are escaped.
-/

namespace LivePage.Text

/-- Classes whose escapes can be undone: they hold the mark of an escape and
every byte that is no character of its own. -/
structure Undoable (escaped : UInt8 → Bool) : Prop where
  mark : escaped '%'.toUInt8 = true
  single : ∀ byte, escaped byte = false → byte.toNat < 128

theorem undoable_controlsAnd {chars : String} (mark : '%'.toUInt8 ∈ encodeUtf8 chars) :
    Undoable (controlsAnd chars) where
  mark := by simp [controlsAnd, mark]
  single byte plain := by
    simp only [controlsAnd, isControlByte, Bool.or_eq_false_iff, decide_eq_false_iff_not,
      ge_iff_le, UInt8.not_le] at plain
    exact Nat.lt_trans (UInt8.lt_iff_toNat_lt.mp plain.1.2) (by decide)

theorem undoable_fileName : Undoable escapedInFileName :=
  undoable_controlsAnd (by decide +kernel)

theorem hexValue?_upperHexDigit {value : Nat} (small : value < 16) :
    hexValue? (Char.ofNat (upperHexDigit value).toUInt8.toNat) = some value ∧
      (upperHexDigit value).toNat < 128 := by
  revert value
  decide

private theorem toNat_ofNat_of_ascii {code : Nat} (ascii : code < 128) :
    (Char.ofNat code).toNat = code := by
  revert code
  decide

/-- The bytes that stand for one byte. -/
def escapedByte (escaped : UInt8 → Bool) (byte : UInt8) : List UInt8 :=
  if escaped byte then
    ['%'.toUInt8, (upperHexDigit (byte.toNat / 16)).toUInt8,
      (upperHexDigit (byte.toNat % 16)).toUInt8]
  else [byte]

section

variable {escaped : UInt8 → Bool} (undoable : Undoable escaped)

include undoable

theorem encodeUtf8_percentEncode (text : String) :
    encodeUtf8 (percentEncode escaped text) = (encodeUtf8 text).flatMap (escapedByte escaped) := by
  rw [percentEncode, encodeUtf8_join, List.flatMap_map]
  congr 1
  funext byte
  have small : byte.toNat < 256 := byte.toNat_lt
  unfold escapedByte
  cases isEscaped : escaped byte with
  | true =>
      have high := (hexValue?_upperHexDigit (show byte.toNat / 16 < 16 by omega)).2
      have low := (hexValue?_upperHexDigit (show byte.toNat % 16 < 16 by omega)).2
      rw [if_pos rfl, if_pos rfl, percentEscape, encodeUtf8_of_ascii (by simp [high, low])]
      rfl
  | false =>
      have same := toNat_ofNat_of_ascii (undoable.single byte isEscaped)
      have ascii := undoable.single byte isEscaped
      rw [← same] at ascii
      rw [if_neg Bool.false_ne_true, if_neg Bool.false_ne_true, encodeUtf8_singleton,
        utf8EncodeChar_of_ascii ascii]
      exact congrArg (· :: []) (UInt8.toNat_inj.mp ((toNat_toUInt8_of_ascii ascii).trans same))

omit undoable in
theorem percentDecodeBytes_plain {byte : UInt8} (notMark : byte ≠ '%'.toUInt8)
    (rest : List UInt8) : percentDecodeBytes (byte :: rest) = byte :: percentDecodeBytes rest := by
  match rest with
  | [] => rfl
  | [_] => rfl
  | _ :: _ :: _ => rw [percentDecodeBytes, if_neg notMark]

theorem percentDecodeBytes_escapedByte (byte : UInt8) (rest : List UInt8) :
    percentDecodeBytes (escapedByte escaped byte ++ rest) = byte :: percentDecodeBytes rest := by
  have small : byte.toNat < 256 := byte.toNat_lt
  unfold escapedByte
  split
  · have high := (hexValue?_upperHexDigit (show byte.toNat / 16 < 16 by omega)).1
    have low := (hexValue?_upperHexDigit (show byte.toNat % 16 < 16 by omega)).1
    have whole : 16 * (byte.toNat / 16) + byte.toNat % 16 = byte.toNat := Nat.div_add_mod _ _
    simp only [List.cons_append, List.nil_append, percentDecodeBytes, if_true, high, low, whole,
      UInt8.ofNat_toNat]
  · next notEscaped =>
      refine percentDecodeBytes_plain ?_ rest
      rintro rfl
      exact notEscaped undoable.mark

/-- Decoding undoes escaping. -/
theorem percentDecodeBytes_percentEncode (text : String) (rest : List UInt8) :
    percentDecodeBytes (encodeUtf8 (percentEncode escaped text) ++ rest) =
      encodeUtf8 text ++ percentDecodeBytes rest := by
  rw [encodeUtf8_percentEncode undoable]
  generalize encodeUtf8 text = bytes
  induction bytes with
  | nil => rfl
  | cons byte more inductionHypothesis =>
      rw [List.flatMap_cons, List.append_assoc, percentDecodeBytes_escapedByte undoable,
        inductionHypothesis]
      rfl

theorem percentDecodeBytes_of_percentEncode (text : String) :
    percentDecodeBytes (encodeUtf8 (percentEncode escaped text)) = encodeUtf8 text := by
  have decoded := percentDecodeBytes_percentEncode undoable text []
  rwa [List.append_nil, percentDecodeBytes, List.append_nil] at decoded

/-- Texts with the same escaped text are the same. -/
theorem percentEncode_injective : Function.Injective (percentEncode escaped) := by
  intro text other same
  have bytes := percentDecodeBytes_of_percentEncode undoable text
  rw [same, percentDecodeBytes_of_percentEncode undoable other] at bytes
  exact (encodeUtf8_injective bytes).symm

end

/-- A text of characters that stand for themselves is its own escaped text. -/
theorem percentEncode_of_plain {escaped : UInt8 → Bool} {text : String}
    (plain : ∀ char ∈ text.toList, char.toNat < 128 ∧ escaped char.toUInt8 = false) :
    percentEncode escaped text = text := by
  have ascii : encodeUtf8 text = text.toList.map Char.toUInt8 := by
    rw [← encodeUtf8_of_ascii fun char member => (plain char member).1, String.ofList_toList]
  have same : ∀ char ∈ text.toList,
      ((fun byte : UInt8 => if escaped byte then percentEscape byte
        else (Char.ofNat byte.toNat).toString) ∘ Char.toUInt8) char = char.toString := by
    intro char member
    obtain ⟨isAscii, notEscaped⟩ := plain char member
    simp [notEscaped, toNat_toUInt8_of_ascii isAscii]
  rw [percentEncode, ascii, List.map_map, List.map_congr_left same, ← String.toList_inj,
    String.toList_join]
  simp [List.flatMap_map]

end LivePage.Text
