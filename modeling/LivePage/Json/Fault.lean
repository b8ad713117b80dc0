import LivePage.Json.Basic
import LivePage.Text.Quoted

/-!
Contract: what is wrong with a JSON text or value.

Owns:
- the causes of a failed reading and their wording;
- the spot of a fault as line and column;
- the wording of a value of the wrong type.

Does not own: how texts are read.
-/

namespace LivePage.Json

/-- Why a value does not fit the type asked for. -/
inductive Mismatch where
  | wrongType (found expected : String)
  | outOfRange (found expected : String)
  | missingField (name : String)
  | duplicateField (name : String)
  | wrongLength (length : Nat) (expected : String)
deriving DecidableEq, Repr

def Mismatch.message : Mismatch → String
  | .wrongType found expected => "invalid type: " ++ found ++ ", expected " ++ expected
  | .outOfRange found expected => "invalid value: " ++ found ++ ", expected " ++ expected
  | .missingField name => "missing field `" ++ name ++ "`"
  | .duplicateField name => "duplicate field `" ++ name ++ "`"
  | .wrongLength length expected =>
      "invalid length " ++ toString length ++ ", expected " ++ expected

/-- Why a text is not the text of a value. -/
inductive Cause where
  | endInValue
  | endInObject
  | endInList
  | endInString
  | expectedValue
  | expectedWord
  | expectedListSeparator
  | expectedObjectSeparator
  | expectedColon
  | trailingComma
  | trailingCharacters
  | keyNotString
  | invalidNumber
  | numberOutOfRange
  | invalidEscape
  | incompletePair
  | loneSurrogate
  | controlCharacter
  | nestedTooDeep
  | invalidEncoding
  | mismatch (reason : Mismatch)
deriving DecidableEq, Repr

def Cause.message : Cause → String
  | .endInValue => "EOF while parsing a value"
  | .endInObject => "EOF while parsing an object"
  | .endInList => "EOF while parsing a list"
  | .endInString => "EOF while parsing a string"
  | .expectedValue => "expected value"
  | .expectedWord => "expected ident"
  | .expectedListSeparator => "expected `,` or `]`"
  | .expectedObjectSeparator => "expected `,` or `\x7d`"
  | .expectedColon => "expected `:`"
  | .trailingComma => "trailing comma"
  | .trailingCharacters => "trailing characters"
  | .keyNotString => "key must be a string"
  | .invalidNumber => "invalid number"
  | .numberOutOfRange => "number out of range"
  | .invalidEscape => "invalid escape"
  | .incompletePair => "unexpected end of hex escape"
  | .loneSurrogate => "lone leading surrogate in hex escape"
  | .controlCharacter => "control character (\\u0000-\\u001F) found while parsing a string"
  | .nestedTooDeep => "recursion limit exceeded"
  | .invalidEncoding => "invalid unicode code point"
  | .mismatch reason => reason.message

/-- A cause and the number of bytes behind the spot where it was noticed. -/
structure Fault where
  cause : Cause
  remaining : Nat
deriving DecidableEq, Repr

/-- The line from one and the column of the spot behind a text. -/
def spotAfter (read : List UInt8) : Nat × Nat :=
  let lineBreak := '\n'.toUInt8
  (read.count lineBreak + 1, (read.reverse.takeWhile (· ≠ lineBreak)).length)

/-- What is wrong with a JSON text, or with a value already read. -/
inductive Error where
  | atSpot (cause : Cause) (line column : Nat)
  | ofValue (reason : Mismatch)
deriving DecidableEq, Repr

def Error.message : Error → String
  | .atSpot cause line column =>
      cause.message ++ " at line " ++ toString line ++ " column " ++ toString column
  | .ofValue reason => reason.message

/-- The error of a fault noticed while reading a text. -/
def Fault.inText (fault : Fault) (text : List UInt8) : Error :=
  let spot := spotAfter (text.take (text.length - fault.remaining))
  .atSpot fault.cause spot.1 spot.2

/-- The name of a value in a message about its type. -/
def described : Json → String
  | .null => "null"
  | .bool value => "boolean `" ++ toString value ++ "`"
  | .int value => "integer `" ++ toString value ++ "`"
  | .float value => "floating point `" ++ value.jsonText ++ "`"
  | .str text => "string " ++ Text.quoted text
  | .arr _ => "sequence"
  | .obj _ => "map"

def wrongType (value : Json) (expected : String) : Mismatch :=
  .wrongType value.described expected

end LivePage.Json
