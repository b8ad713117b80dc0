import LivePage.Json.Reader

/-!
Contract: passing over a value whose content does not matter.

Owns:
- the end of a value and the faults on the way to it. Nesting, the range of
  numbers, the encoding of strings and surrogates are not checked.

Does not own: the value itself.
-/

namespace LivePage.Json

/-- The rest behind an escape, whose backslash has been read. -/
def skipEscape : Bytes → Except Fault Bytes
  | [] => failHere .endInString []
  | byte :: rest =>
      if (shortEscape? byte).isSome then .ok rest
      else if byte = 'u'.toUInt8 then (readFourDigits rest).map Prod.snd
      else failHere .invalidEscape rest

/-- The rest behind a string, whose opening quote has been read. -/
def skipString : Nat → Bytes → Except Fault Bytes
  | 0, _ => failHere .endInString []
  | _ + 1, [] => failHere .endInString []
  | fuel + 1, byte :: rest =>
      if byte = '"'.toUInt8 then .ok rest
      else if byte = '\\'.toUInt8 then
        match skipEscape rest with
        | .error fault => .error fault
        | .ok after => skipString fuel after
      else if byte < 0x20 then failHere .controlCharacter (byte :: rest)
      else skipString fuel rest

/-- The rest behind an exponent, whose mark has been read. -/
def skipExponent (bytes : Bytes) : Except Fault Bytes :=
  let unsigned :=
    match bytes with
    | sign :: rest => if sign = '+'.toUInt8 || sign = '-'.toUInt8 then rest else bytes
    | [] => []
  match unsigned with
  | [] => failHere .invalidNumber []
  | byte :: rest =>
      if isDigitByte byte then .ok (rest.dropWhile isDigitByte) else failHere .invalidNumber rest

def skipFraction (bytes : Bytes) : Except Fault Bytes :=
  let rest := bytes.dropWhile isDigitByte
  if rest.length = bytes.length then failNext .invalidNumber bytes
  else
    match rest with
    | byte :: after => if isExponentMark byte then skipExponent after else .ok rest
    | [] => .ok []

/-- The rest behind a number, whose sign has been read. -/
def skipNumber : Bytes → Except Fault Bytes
  | [] => failHere .invalidNumber []
  | byte :: rest =>
      let startsTwice := byte = '0'.toUInt8 && (rest.head?.map isDigitByte).getD false
      if startsTwice then failNext .invalidNumber rest
      else if isDigitByte byte then
        let after := if byte = '0'.toUInt8 then rest else rest.dropWhile isDigitByte
        match after with
        | next :: more =>
            if next = '.'.toUInt8 then skipFraction more
            else if isExponentMark next then skipExponent more
            else .ok after
        | [] => .ok []
      else failHere .invalidNumber rest

def skipScalar (bytes : Bytes) : Except Fault Bytes :=
  match bytes with
  | [] => failHere .endInValue []
  | byte :: rest =>
      if byte = 'n'.toUInt8 then readWord ['u', 'l', 'l'] rest
      else if byte = 't'.toUInt8 then readWord ['r', 'u', 'e'] rest
      else if byte = 'f'.toUInt8 then readWord ['a', 'l', 's', 'e'] rest
      else if byte = '-'.toUInt8 then skipNumber rest
      else if isDigitByte byte then skipNumber bytes
      else if byte = '"'.toUInt8 then skipString (rest.length + 1) rest
      else failNext .expectedValue bytes

mutual

/-- The rest behind a value. -/
def skipValue : Nat → Bytes → Except Fault Bytes
  | 0, _ => failHere .endInValue []
  | fuel + 1, bytes =>
      match skipSpace bytes with
      | [] => failHere .endInValue []
      | byte :: rest =>
          if byte = '['.toUInt8 then skipElements fuel true rest
          else if byte = '\x7b'.toUInt8 then skipMembers fuel true rest
          else skipScalar (byte :: rest)

def skipElements : Nat → Bool → Bytes → Except Fault Bytes
  | 0, _, _ => failHere .endInList []
  | fuel + 1, isFirst, bytes =>
      match skipSpace bytes with
      | [] => failHere .endInList []
      | byte :: rest =>
          if byte = ']'.toUInt8 then .ok rest
          else if !isFirst && byte ≠ ','.toUInt8 then
            failNext .expectedListSeparator (byte :: rest)
          else
            match skipValue fuel (if isFirst then byte :: rest else rest) with
            | .error fault => .error fault
            | .ok after => skipElements fuel false after

def skipMembers : Nat → Bool → Bytes → Except Fault Bytes
  | 0, _, _ => failHere .endInObject []
  | fuel + 1, isFirst, bytes =>
      match skipSpace bytes with
      | [] => failHere .endInObject []
      | byte :: rest =>
          if byte = '\x7d'.toUInt8 then .ok rest
          else if !isFirst && byte ≠ ','.toUInt8 then
            failNext .expectedObjectSeparator (byte :: rest)
          else
            match skipSpace (if isFirst then byte :: rest else rest) with
            | [] => failHere .endInObject []
            | quote :: inside =>
                if quote ≠ '"'.toUInt8 then failNext .keyNotString (quote :: inside)
                else
                  match skipString (inside.length + 1) inside with
                  | .error fault => .error fault
                  | .ok afterName =>
                      match readColon afterName with
                      | .error fault => .error fault
                      | .ok afterColon =>
                          match skipValue fuel afterColon with
                          | .error fault => .error fault
                          | .ok after => skipMembers fuel false after

end

end LivePage.Json
