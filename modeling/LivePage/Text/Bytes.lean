/-!
Contract: bytes and the text they encode.

Owns:
- UTF-8 encoding and decoding between strings and byte lists, and the number of bytes;
- lower case hexadecimal writing and reading.

Does not own: percent escapes.
-/

namespace LivePage.Text

def encodeUtf8 (text : String) : List UInt8 :=
  text.toByteArray.toList

/-- The text that the bytes encode; none for bytes that are not valid UTF-8. -/
def decodeUtf8? (bytes : List UInt8) : Option String :=
  String.fromUTF8? bytes.toByteArray

def byteLength (text : String) : Nat :=
  text.utf8ByteSize

/-- Bytes of characters in UTF-8. -/
def byteCount : List Char → Nat
  | [] => 0
  | char :: rest => char.utf8Size + byteCount rest

def hexDigit (value : Nat) : Char :=
  if value < 10 then Char.ofNat ('0'.toNat + value) else Char.ofNat ('a'.toNat + (value - 10))

/-- Two lower case digits for each byte. -/
def hexText (bytes : List UInt8) : String :=
  String.ofList (bytes.flatMap (fun byte => [hexDigit (byte.toNat / 16), hexDigit (byte.toNat % 16)]))

/-- The value of a hexadecimal digit of either case. -/
def hexValue? (char : Char) : Option Nat :=
  if '0' ≤ char && char ≤ '9' then some (char.toNat - '0'.toNat)
  else if 'a' ≤ char && char ≤ 'f' then some (char.toNat - 'a'.toNat + 10)
  else if 'A' ≤ char && char ≤ 'F' then some (char.toNat - 'A'.toNat + 10)
  else none

/-- Reads pairs of hexadecimal digits. -/
def hexBytes? : List Char → Option (List UInt8)
  | [] => some []
  | [_] => none
  | high :: low :: rest =>
      match hexValue? high, hexValue? low, hexBytes? rest with
      | some highValue, some lowValue, some bytes =>
          some (UInt8.ofNat (16 * highValue + lowValue) :: bytes)
      | _, _, _ => none

/-- The digits of a number in base sixteen, in lower case. -/
def hexNumber (value : Nat) : String :=
  String.ofList (Nat.toDigits 16 value)

end LivePage.Text
