import LivePage.Text.Cut
import LivePage.Text.Percent

/-!
Contract: the pairs in a query.

Owns:
- cutting a query into names and values, and decoding them;
- decoding of bytes that need not be UTF-8.

Does not own: which names mean something.
-/

namespace LivePage

namespace Text

/-- How many bytes a character has that begins with a byte, and the bounds on
its second byte; none for a byte that begins no character. -/
def sequenceStart? (byte : UInt8) : Option (Nat × UInt8 × UInt8) :=
  if byte < 0x80 then some (1, 0x80, 0xBF)
  else if byte < 0xC2 then none
  else if byte < 0xE0 then some (2, 0x80, 0xBF)
  else if byte = 0xE0 then some (3, 0xA0, 0xBF)
  else if byte = 0xED then some (3, 0x80, 0x9F)
  else if byte < 0xF0 then some (3, 0x80, 0xBF)
  else if byte = 0xF0 then some (4, 0x90, 0xBF)
  else if byte < 0xF4 then some (4, 0x80, 0xBF)
  else if byte = 0xF4 then some (4, 0x80, 0x8F)
  else none

/-- How many of the bytes behind the first continue its character. -/
def continuation (count : Nat) (low high : UInt8) : List UInt8 → Nat
  | [] => 0
  | byte :: rest =>
      if count = 0 then 0
      else if low ≤ byte && byte ≤ high then
        1 + continuation (count - 1) 0x80 0xBF rest
      else 0

/-- The length of the first character, or of the beginning of one that breaks
off, and whether it is whole. Never nothing, so that reading gets on. -/
def firstSequence (first : UInt8) (rest : List UInt8) : Nat × Bool :=
  match sequenceStart? first with
  | none => (1, false)
  | some (length, low, high) =>
      let found := continuation (length - 1) low high rest
      (found + 1, found + 1 = length)

/-- Decodes bytes; each longest beginning of a character that breaks off, and
each byte that begins none, is replaced. The fuel bounds the characters. -/
def decodeReplacing : Nat → List UInt8 → List Char
  | 0, _ => []
  | _, [] => []
  | fuel + 1, first :: rest =>
      let (length, isWhole) := firstSequence first rest
      let here := (first :: rest).take length
      let decoded :=
        if isWhole then ((decodeUtf8? here).getD "\uFFFD").toList else ['\uFFFD']
      decoded ++ decodeReplacing fuel ((first :: rest).drop length)

/-- The text of bytes, with a replacement for whatever is not UTF-8. -/
def decodeUtf8Replacing (bytes : List UInt8) : String :=
  match decodeUtf8? bytes with
  | some text => text
  | none => String.ofList (decodeReplacing bytes.length bytes)

end Text

/-- The names and values of a query, in order. -/
abbrev Query := List (String × String)

namespace Query

/-- Decodes a name or a value: a plus sign is a space. -/
def decode (text : String) : String :=
  let spaced := (Text.encodeUtf8 text).map (fun byte =>
    if byte = '+'.toUInt8 then ' '.toUInt8 else byte)
  Text.decodeUtf8Replacing (Text.percentDecodeBytes spaced)

/-- A name up to the first equals sign, and the value behind it. -/
def readPair (piece : String) : String × String :=
  match Text.cutText? '=' piece with
  | some (name, value) => (decode name, decode value)
  | none => (decode piece, "")

/-- The pairs of a query; they are separated by ampersands. -/
def read (text : String) : Query :=
  ((Text.splitText '&' text).filter (fun piece => !piece.isEmpty)).map readPair

/-- The values of a name. -/
def values (query : Query) (name : String) : List String :=
  (query.filter (fun pair => pair.1 == name)).map Prod.snd

end Query

end LivePage
