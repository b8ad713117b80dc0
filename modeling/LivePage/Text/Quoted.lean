import LivePage.Text.Bytes

/-!
Contract: quoted text for messages and inspection.

Owns:
- the classes of characters that a quoted text shows as escapes;
- the quoted form of a string.

Does not own: the escapes of any data format.
-/

namespace LivePage.Text

/-- Code ranges of controls, format characters, separators other than the
space, private use and characters that attach to their neighbour. -/
def hiddenRanges : List (Nat × Nat) := [
  (0x00, 0x1F), (0x7F, 0xA0), (0xAD, 0xAD), (0x300, 0x36F), (0x378, 0x379), (0x483, 0x489),
  (0x591, 0x5BD), (0x5BF, 0x5BF), (0x5C1, 0x5C2), (0x5C4, 0x5C5), (0x5C7, 0x5C7),
  (0x600, 0x605), (0x610, 0x61A), (0x61C, 0x61C), (0x64B, 0x65F), (0x670, 0x670),
  (0x6D6, 0x6DD), (0x6DF, 0x6E4), (0x6E7, 0x6E8), (0x6EA, 0x6ED), (0x70F, 0x70F),
  (0x711, 0x711), (0x730, 0x74A), (0x7A6, 0x7B0), (0x93C, 0x93C), (0x941, 0x948),
  (0x94D, 0x94D), (0xE31, 0xE31), (0xE34, 0xE3A), (0xE47, 0xE4E), (0x1680, 0x1680),
  (0x180B, 0x180F), (0x1AB0, 0x1ACE), (0x1DC0, 0x1DFF), (0x2000, 0x200F), (0x2028, 0x202F),
  (0x205F, 0x206F), (0x20D0, 0x20F0), (0x302A, 0x302F), (0x3000, 0x3000), (0x3099, 0x309A),
  (0xD800, 0xF8FF), (0xFE00, 0xFE0F), (0xFE20, 0xFE2F), (0xFEFF, 0xFEFF), (0xFFF0, 0xFFFB),
  (0xFFFE, 0xFFFF), (0xE0000, 0x10FFFF)]

/-- Whether a quoted text shows the character by its code. -/
def isHidden (char : Char) : Bool :=
  hiddenRanges.any (fun range => range.1 ≤ char.toNat && char.toNat ≤ range.2)

/-- The form of one character between double quotes. -/
def quotedChar (char : Char) : String :=
  if char = '"' then "\\\""
  else if char = '\\' then "\\\\"
  else if char = '\n' then "\\n"
  else if char = '\r' then "\\r"
  else if char = '\t' then "\\t"
  else if char.toNat = 0 then "\\0"
  else if isHidden char then "\\u\x7b" ++ hexNumber char.toNat ++ "\x7d"
  else char.toString

/-- A string between double quotes, with escapes for what cannot be seen. -/
def quoted (text : String) : String :=
  "\"" ++ String.join (text.toList.map quotedChar) ++ "\""

end LivePage.Text
