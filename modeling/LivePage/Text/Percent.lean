import LivePage.Text.Bytes

/-!
Contract: percent escapes.

Owns:
- escaping of the bytes of a class, and the classes that parts of locations use;
- decoding of escapes to bytes.

Does not own: which part of a location a text is.
-/

namespace LivePage.Text

def upperHexDigit (value : Nat) : Char :=
  (hexDigit value).toUpper

/-- A percent sign and two upper case digits. -/
def percentEscape (byte : UInt8) : String :=
  String.ofList ['%', upperHexDigit (byte.toNat / 16), upperHexDigit (byte.toNat % 16)]

/-- Controls and bytes beyond ASCII, which every class escapes. -/
def isControlByte (byte : UInt8) : Bool :=
  byte < 0x20 || byte ≥ 0x7F

/-- A class of bytes to escape: controls and the given characters. -/
def controlsAnd (chars : String) (byte : UInt8) : Bool :=
  isControlByte byte || (encodeUtf8 chars).contains byte

def escapedInFragment : UInt8 → Bool :=
  controlsAnd " \"<>`"

def escapedInPath : UInt8 → Bool :=
  controlsAnd " \"<>`#?\x7b\x7d"

/-- One name of a file, in which separators and escapes stand for themselves. -/
def escapedInFileName : UInt8 → Bool :=
  controlsAnd " \"<>`#?\x7b\x7d/%\\"

def escapedInQuery : UInt8 → Bool :=
  controlsAnd " \"#<>"

/-- A query behind a scheme with a host by standard. -/
def escapedInSpecialQuery : UInt8 → Bool :=
  controlsAnd " \"#<>'"

/-- Escapes the bytes of a class. -/
def percentEncode (escaped : UInt8 → Bool) (text : String) : String :=
  String.join ((encodeUtf8 text).map (fun byte =>
    if escaped byte then percentEscape byte else (Char.ofNat byte.toNat).toString))

/-- Replaces every escape by its byte; a percent sign without two digits stays. -/
def percentDecodeBytes : List UInt8 → List UInt8
  | [] => []
  | [byte] => [byte]
  | [first, second] => [first, second]
  | byte :: high :: low :: rest =>
      if byte = '%'.toUInt8 then
        match hexValue? (Char.ofNat high.toNat), hexValue? (Char.ofNat low.toNat) with
        | some highValue, some lowValue =>
            UInt8.ofNat (16 * highValue + lowValue) :: percentDecodeBytes rest
        | _, _ => byte :: percentDecodeBytes (high :: low :: rest)
      else byte :: percentDecodeBytes (high :: low :: rest)

/-- The text with its escapes decoded; none if the bytes are not UTF-8. -/
def percentDecode? (text : String) : Option String :=
  decodeUtf8? (percentDecodeBytes (encodeUtf8 text))

end LivePage.Text
