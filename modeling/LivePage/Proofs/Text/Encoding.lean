import LivePage.Text.Bytes

/-!
Contract: UTF-8, character by character.

Owns:
- the bytes of a text as those of its characters, one after another;
- decoding gives back what was encoded;
- characters of a single byte, and the bytes of all others.

Does not own: escapes of any format.
-/

namespace LivePage.Text

/-! ## Texts -/

private theorem toList_loop_eq (bytes : ByteArray) (index : Nat) (reversed : List UInt8) :
    ByteArray.toList.loop bytes index reversed =
      reversed.reverse ++ bytes.data.toList.drop index := by
  fun_induction ByteArray.toList.loop bytes index reversed with
  | case1 index reversed inside inductionHypothesis =>
      have isIndex : index < bytes.data.toList.length := by simpa using inside
      rw [inductionHypothesis, List.drop_eq_getElem_cons isIndex]
      simp [ByteArray.get!, inside]
  | case2 index reversed outside =>
      rw [List.drop_eq_nil_of_le (by simpa using Nat.le_of_not_lt outside), List.append_nil]

private theorem byteArray_toList_eq (bytes : ByteArray) : bytes.toList = bytes.data.toList := by
  rw [ByteArray.toList, toList_loop_eq]
  rfl

/-- The bytes of a text are those of its characters. -/
theorem encodeUtf8_ofList (chars : List Char) :
    encodeUtf8 (String.ofList chars) = chars.flatMap String.utf8EncodeChar := by
  rw [encodeUtf8, byteArray_toList_eq, String.toByteArray_ofList, List.utf8Encode,
    List.toList_data_toByteArray]

theorem encodeUtf8_eq (text : String) :
    encodeUtf8 text = text.toList.flatMap String.utf8EncodeChar := by
  rw [← encodeUtf8_ofList, String.ofList_toList]

theorem encodeUtf8_append (left right : String) :
    encodeUtf8 (left ++ right) = encodeUtf8 left ++ encodeUtf8 right := by
  rw [encodeUtf8_eq, encodeUtf8_eq, encodeUtf8_eq, String.toList_append, List.flatMap_append]

theorem encodeUtf8_join (texts : List String) :
    encodeUtf8 (String.join texts) = texts.flatMap encodeUtf8 := by
  induction texts with
  | nil =>
      rw [String.join_nil, encodeUtf8_eq, String.toList_empty, List.flatMap_nil, List.flatMap_nil]
  | cons text rest inductionHypothesis =>
      rw [String.join_cons, encodeUtf8_append, inductionHypothesis, List.flatMap_cons]

theorem toByteArray_encodeUtf8 (text : String) :
    (encodeUtf8 text).toByteArray = text.toByteArray := by
  apply ByteArray.ext
  apply Array.toList_inj.mp
  rw [List.toList_data_toByteArray, encodeUtf8, byteArray_toList_eq]

/-- What was encoded is decoded again. -/
theorem decodeUtf8?_encodeUtf8 (text : String) : decodeUtf8? (encodeUtf8 text) = some text := by
  rw [decodeUtf8?, toByteArray_encodeUtf8, String.fromUTF8?, dif_pos text.isValidUTF8]
  rfl

theorem encodeUtf8_injective : Function.Injective encodeUtf8 := by
  intro text other same
  have decoded := congrArg decodeUtf8? same
  rwa [decodeUtf8?_encodeUtf8, decodeUtf8?_encodeUtf8, Option.some.injEq] at decoded

/-! ## Characters -/

/-- The characters of a single byte are those of ASCII. -/
theorem utf8EncodeChar_of_ascii {char : Char} (ascii : char.toNat < 128) :
    String.utf8EncodeChar char = [char.toUInt8] := by
  have short : char.val.toNat ≤ 0x7F := Nat.le_of_lt_succ ascii
  rw [String.utf8EncodeChar, if_pos short]
  rfl

theorem toNat_toUInt8_of_ascii {char : Char} (ascii : char.toNat < 128) :
    char.toUInt8.toNat = char.toNat := by
  rw [Char.toUInt8, UInt32.toNat_toUInt8]
  exact Nat.mod_eq_of_lt (Nat.lt_trans ascii (by decide))

theorem encodeUtf8_singleton (char : Char) :
    encodeUtf8 char.toString = String.utf8EncodeChar char := by
  rw [encodeUtf8_eq]
  simp

theorem encodeUtf8_of_ascii {chars : List Char} (ascii : ∀ char ∈ chars, char.toNat < 128) :
    encodeUtf8 (String.ofList chars) = chars.map Char.toUInt8 := by
  rw [encodeUtf8_ofList]
  induction chars with
  | nil => rfl
  | cons char rest inductionHypothesis =>
      rw [List.flatMap_cons, utf8EncodeChar_of_ascii (ascii char List.mem_cons_self),
        inductionHypothesis (fun other member => ascii other (List.mem_cons_of_mem _ member))]
      rfl

/-- A character beyond ASCII is made of bytes beyond ASCII. -/
theorem le_of_mem_utf8EncodeChar {char : Char} (beyond : 128 ≤ char.toNat) {byte : UInt8}
    (member : byte ∈ String.utf8EncodeChar char) : 128 ≤ byte.toNat := by
  have notShort : ¬char.val.toNat ≤ 0x7F := Nat.not_le.mpr beyond
  simp only [String.utf8EncodeChar, notShort, if_false] at member
  split at member
  · simp only [List.mem_cons, List.not_mem_nil, or_false] at member
    rcases member with rfl | rfl <;> simp only [UInt8.toNat_ofNat'] <;> omega
  · split at member
    · simp only [List.mem_cons, List.not_mem_nil, or_false] at member
      rcases member with rfl | rfl | rfl <;> simp only [UInt8.toNat_ofNat'] <;> omega
    · simp only [List.mem_cons, List.not_mem_nil, or_false] at member
      rcases member with rfl | rfl | rfl | rfl <;> simp only [UInt8.toNat_ofNat'] <;> omega

end LivePage.Text
