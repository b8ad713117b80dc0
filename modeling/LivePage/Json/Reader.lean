import LivePage.Json.Fault

/-!
Contract: reading JSON texts.

Owns:
- reading of strings, numbers and values from bytes, with the exact spot of
  the first fault;
- skipping of a value whose content does not matter, which is more lenient:
  no bound on nesting, on the range of numbers or on surrogates.

Does not own: types that a caller expects of a value.

Every reader takes the bytes not yet read and returns what it read together
with the rest. A fault counts the bytes behind its spot, so that no reader has
to carry a position.
-/

namespace LivePage.Json

abbrev Bytes := List UInt8

/-- What a reader returns. -/
abbrev Reading (α : Type) := Except Fault (α × Bytes)

/-- A fault in front of the rest. -/
def failHere (cause : Cause) (rest : Bytes) : Except Fault α :=
  .error ⟨cause, rest.length⟩

/-- A fault behind the next byte. -/
def failNext (cause : Cause) (rest : Bytes) : Except Fault α :=
  .error ⟨cause, rest.length - 1⟩

def isSpace (byte : UInt8) : Bool :=
  byte == 0x20 || byte == 0x0A || byte == 0x09 || byte == 0x0D

def skipSpace (bytes : Bytes) : Bytes :=
  bytes.dropWhile isSpace

def isDigitByte (byte : UInt8) : Bool :=
  0x30 ≤ byte && byte ≤ 0x39

def digitOf (byte : UInt8) : Nat :=
  byte.toNat - 0x30

/-- The rest of a word whose first letter has been read. -/
def readWord : List Char → Bytes → Except Fault Bytes
  | [], rest => .ok rest
  | _ :: _, [] => failHere .endInValue []
  | letter :: word, byte :: rest =>
      if byte = letter.toUInt8 then readWord word rest else failHere .expectedWord rest

/-! ### Strings -/

def hexByte? (byte : UInt8) : Option Nat :=
  Text.hexValue? (Char.ofNat byte.toNat)

/-- The value of four hexadecimal digits. -/
def readFourDigits : Bytes → Reading Nat
  | first :: second :: third :: fourth :: rest =>
      match hexByte? first, hexByte? second, hexByte? third, hexByte? fourth with
      | some a, some b, some c, some d => .ok (4096 * a + 256 * b + 16 * c + d, rest)
      | _, _, _, _ => failHere .invalidEscape rest
  | _ => failHere .endInString []

def encodeScalar (code : Nat) : Bytes :=
  Text.encodeUtf8 (Char.ofNat code).toString

/-- The second half of a surrogate pair, behind its first half. -/
def readLowSurrogate (high : Nat) (bytes : Bytes) : Reading Bytes :=
  match bytes with
  | [] => failHere .endInString []
  | first :: afterFirst =>
      if first ≠ '\\'.toUInt8 then failHere .incompletePair afterFirst
      else
        match afterFirst with
        | [] => failHere .endInString []
        | second :: afterSecond =>
            if second ≠ 'u'.toUInt8 then failHere .incompletePair afterSecond
            else
              match readFourDigits afterSecond with
              | .error fault => .error fault
              | .ok (low, rest) =>
                  if 0xDC00 ≤ low ∧ low ≤ 0xDFFF then
                    .ok (encodeScalar (0x10000 + 1024 * (high - 0xD800) + (low - 0xDC00)), rest)
                  else failHere .loneSurrogate rest

/-- The bytes that a `u` escape stands for. -/
def readUnicodeEscape (bytes : Bytes) : Reading Bytes :=
  match readFourDigits bytes with
  | .error fault => .error fault
  | .ok (code, rest) =>
      if 0xDC00 ≤ code ∧ code ≤ 0xDFFF then failHere .loneSurrogate rest
      else if 0xD800 ≤ code ∧ code ≤ 0xDBFF then readLowSurrogate code rest
      else .ok (encodeScalar code, rest)

/-- The byte that a short escape stands for. -/
def shortEscape? (byte : UInt8) : Option UInt8 :=
  if byte = '"'.toUInt8 then some byte
  else if byte = '\\'.toUInt8 then some byte
  else if byte = '/'.toUInt8 then some byte
  else if byte = 'b'.toUInt8 then some 0x08
  else if byte = 'f'.toUInt8 then some 0x0C
  else if byte = 'n'.toUInt8 then some 0x0A
  else if byte = 'r'.toUInt8 then some 0x0D
  else if byte = 't'.toUInt8 then some 0x09
  else none

/-- The bytes of an escape, behind its backslash. -/
def readEscape : Bytes → Reading Bytes
  | [] => failHere .endInString []
  | byte :: rest =>
      match shortEscape? byte with
      | some meant => .ok ([meant], rest)
      | none => if byte = 'u'.toUInt8 then readUnicodeEscape rest else failHere .invalidEscape rest

/-- The content of a string up to its closing quote. The fuel bounds the
number of characters and escapes; `content` is what was read, in reverse. -/
def readContent : Nat → Bytes → Bytes → Reading Bytes
  | 0, _, _ => failHere .endInString []
  | _ + 1, _, [] => failHere .endInString []
  | fuel + 1, content, byte :: rest =>
      if byte = '"'.toUInt8 then .ok (content.reverse, rest)
      else if byte = '\\'.toUInt8 then
        match readEscape rest with
        | .error fault => .error fault
        | .ok (meant, after) => readContent fuel (meant.reverse ++ content) after
      else if byte < 0x20 then failHere .controlCharacter rest
      else readContent fuel (byte :: content) rest

/-- How many bytes at the front make up whole characters. The fuel bounds the
number of characters. -/
def wholeCharacters : Nat → Bytes → Nat
  | 0, _ => 0
  | fuel + 1, bytes =>
      let isWhole (size : Nat) : Bool :=
        size ≤ bytes.length && (Text.decodeUtf8? (bytes.take size)).isSome
      match [1, 2, 3, 4].find? isWhole with
      | some size => size + wholeCharacters fuel (bytes.drop size)
      | none => 0

/-- A string behind its opening quote. Bytes that are no text are noticed at
the first one that belongs to no character. -/
def readString (bytes : Bytes) : Reading String :=
  match readContent (bytes.length + 1) [] bytes with
  | .error fault => .error fault
  | .ok (content, rest) =>
      match Text.decodeUtf8? content with
      | some text => .ok (text, rest)
      | none =>
          failNext .invalidEncoding (bytes.drop (wholeCharacters bytes.length bytes))

/-! ### Numbers -/

def greatestExponent : Nat := 0x7FFFFFFF

/-- Powers of ten that a single step of scaling can use. -/
def greatestPower : Nat := 308

def powerOfTen (exponent : Nat) : Binary64 :=
  (Binary64.ofDecimal? false 1 (Int.ofNat exponent)).getD .zero

/-- Scales a number by a power of ten, rounding after each step. The fuel
bounds the number of steps; none when the result is not finite. -/
def scaleByTen : Nat → Binary64 → Int → Option Binary64
  | 0, number, _ => some number
  | fuel + 1, number, exponent =>
      if exponent.natAbs ≤ greatestPower then
        if 0 ≤ exponent then number.scaleBy? (powerOfTen exponent.natAbs)
        else number.divideBy? (powerOfTen exponent.natAbs)
      else if number.isZero then some number
      else if 0 ≤ exponent then none
      else
        match number.divideBy? (powerOfTen greatestPower) with
        | some smaller => scaleByTen fuel smaller (exponent + greatestPower)
        | none => none

/-- The number of a significand and a power of ten. -/
def assemble (negative : Bool) (significand : Nat) (exponent : Int) (rest : Bytes) :
    Reading Json :=
  let start := (Binary64.ofRatio? false significand 1).getD .zero
  match scaleByTen 10 start exponent with
  | some magnitude => .ok (.float (if negative then magnitude.negate else magnitude), rest)
  | none => failHere .numberOutOfRange rest

/-- The digits of an exponent, behind the first one. -/
def readExponentDigits (negative positiveExponent : Bool) (significand : Nat) (start : Int) :
    Nat → Bytes → Reading Json
  | exponent, [] =>
      assemble negative significand
        (if positiveExponent then start + exponent else start - exponent) []
  | exponent, byte :: rest =>
      if isDigitByte byte then
        if 10 * exponent + digitOf byte > greatestExponent then
          if significand ≠ 0 ∧ positiveExponent = true then failHere .numberOutOfRange rest
          else
            .ok (.float (if negative then Binary64.zero.negate else .zero),
              rest.dropWhile isDigitByte)
        else
          readExponentDigits negative positiveExponent significand start
            (10 * exponent + digitOf byte) rest
      else
        assemble negative significand
          (if positiveExponent then start + exponent else start - exponent) (byte :: rest)

/-- An exponent behind its mark. -/
def readExponent (negative : Bool) (significand : Nat) (start : Int) (bytes : Bytes) :
    Reading Json :=
  let (positiveExponent, unsigned) :=
    match bytes with
    | sign :: rest =>
        if sign = '+'.toUInt8 then (true, rest)
        else if sign = '-'.toUInt8 then (false, rest)
        else (true, bytes)
    | [] => (true, [])
  match unsigned with
  | [] => failHere .endInValue []
  | byte :: rest =>
      if isDigitByte byte then
        readExponentDigits negative positiveExponent significand start (digitOf byte) rest
      else failHere .invalidNumber rest

def isExponentMark (byte : UInt8) : Bool :=
  byte == 'e'.toUInt8 || byte == 'E'.toUInt8

/-- What may follow the digits of a number: an exponent or the end of the number. -/
def finishNumber (negative : Bool) (significand : Nat) (exponent : Int) (bytes : Bytes) :
    Reading Json :=
  match bytes with
  | byte :: rest =>
      if isExponentMark byte then readExponent negative significand exponent rest
      else assemble negative significand exponent bytes
  | [] => assemble negative significand exponent []

/-- The digits behind the point. Digits that no longer fit the significand
are dropped. -/
def readFraction (negative : Bool) (before : Int) :
    Nat → Nat → Bytes → Reading Json
  | significand, places, bytes =>
      match bytes with
      | byte :: rest =>
          if isDigitByte byte then
            if 10 * significand + digitOf byte > greatestNat64 then
              finishNumber negative significand (before - places) (rest.dropWhile isDigitByte)
            else
              readFraction negative before (10 * significand + digitOf byte) (places + 1) rest
          else if places = 0 then failNext .invalidNumber bytes
          else finishNumber negative significand (before - places) bytes
      | [] =>
          if places = 0 then failHere .endInValue []
          else finishNumber negative significand (before - places) []

/-- An integer too long for the significand: its further digits are counted. -/
def readLongInteger (negative : Bool) (significand : Nat) : Nat → Bytes → Reading Json
  | dropped, bytes =>
      match bytes with
      | byte :: rest =>
          if isDigitByte byte then readLongInteger negative significand (dropped + 1) rest
          else if byte = '.'.toUInt8 then readFraction negative dropped significand 0 rest
          else finishNumber negative significand dropped bytes
      | [] => finishNumber negative significand dropped []

/-- What follows the digits of an integer that fits. An integer of the 64 bit
ranges stays one; zero with a sign and what lies below become floating point. -/
def readAfterInteger (negative : Bool) (significand : Nat) (bytes : Bytes) : Reading Json :=
  let integer : Json :=
    if !negative then .int (Int.ofNat significand)
    else if 0 < significand ∧ significand ≤ 0x8000000000000000 then .int (-Int.ofNat significand)
    else .float ((Binary64.ofRatio? true significand 1).getD .zero)
  match bytes with
  | byte :: rest =>
      if byte = '.'.toUInt8 then readFraction negative 0 significand 0 rest
      else if isExponentMark byte then readExponent negative significand 0 rest
      else .ok (integer, bytes)
  | [] => .ok (integer, [])

/-- The digits of an integer, behind the first one. -/
def readDigits (negative : Bool) : Nat → Bytes → Reading Json
  | significand, bytes =>
      match bytes with
      | byte :: rest =>
          if isDigitByte byte then
            if 10 * significand + digitOf byte > greatestNat64 then
              readLongInteger negative significand 1 rest
            else readDigits negative (10 * significand + digitOf byte) rest
          else readAfterInteger negative significand bytes
      | [] => readAfterInteger negative significand []

/-- A number behind its sign. -/
def readNumber (negative : Bool) : Bytes → Reading Json
  | [] => failHere .endInValue []
  | byte :: rest =>
      if byte = '0'.toUInt8 then
        match rest with
        | next :: _ =>
            if isDigitByte next then failNext .invalidNumber rest
            else readAfterInteger negative 0 rest
        | [] => readAfterInteger negative 0 []
      else if isDigitByte byte then readDigits negative (digitOf byte) rest
      else failHere .invalidNumber rest

/-! ### Values -/

/-- The bound on nesting of the texts that clients send. -/
def nestingLimit : Nat := 128

/-- A word, number or string; arrays and objects are left to the caller. -/
def readScalar (bytes : Bytes) : Reading Json :=
  match bytes with
  | [] => failHere .endInValue []
  | byte :: rest =>
      if byte = 'n'.toUInt8 then (readWord ['u', 'l', 'l'] rest).map (fun after => (.null, after))
      else if byte = 't'.toUInt8 then
        (readWord ['r', 'u', 'e'] rest).map (fun after => (.bool true, after))
      else if byte = 'f'.toUInt8 then
        (readWord ['a', 'l', 's', 'e'] rest).map (fun after => (.bool false, after))
      else if byte = '-'.toUInt8 then readNumber true rest
      else if isDigitByte byte then readNumber false bytes
      else if byte = '"'.toUInt8 then
        (readString rest).map (fun read => (.str read.1, read.2))
      else failNext .expectedValue bytes

/-- Comes in front of a list element: true when there is one, false in front
of the closing bracket. -/
def beforeElement (isFirst : Bool) (bytes : Bytes) : Reading Bool :=
  match skipSpace bytes with
  | [] => failHere .endInList []
  | byte :: rest =>
      if byte = ']'.toUInt8 then .ok (false, byte :: rest)
      else if isFirst then .ok (true, byte :: rest)
      else if byte = ','.toUInt8 then
        match skipSpace rest with
        | [] => failHere .endInValue []
        | next :: after =>
            if next = ']'.toUInt8 then failNext .trailingComma (next :: after)
            else .ok (true, next :: after)
      else failNext .expectedListSeparator (byte :: rest)

/-- Comes in front of an object member: true in front of the quote of a key,
false in front of the closing brace. -/
def beforeMember (isFirst : Bool) (bytes : Bytes) : Reading Bool :=
  match skipSpace bytes with
  | [] => failHere .endInObject []
  | byte :: rest =>
      if byte = '\x7d'.toUInt8 then .ok (false, byte :: rest)
      else if isFirst then
        if byte = '"'.toUInt8 then .ok (true, byte :: rest)
        else failNext .keyNotString (byte :: rest)
      else if byte = ','.toUInt8 then
        match skipSpace rest with
        | [] => failHere .endInValue []
        | next :: after =>
            if next = '"'.toUInt8 then .ok (true, next :: after)
            else if next = '\x7d'.toUInt8 then failNext .trailingComma (next :: after)
            else failNext .keyNotString (next :: after)
      else failNext .expectedObjectSeparator (byte :: rest)

/-- The colon between a key and its value. -/
def readColon (bytes : Bytes) : Except Fault Bytes :=
  match skipSpace bytes with
  | [] => failHere .endInObject []
  | byte :: rest =>
      if byte = ':'.toUInt8 then .ok rest else failNext .expectedColon (byte :: rest)

mutual

/-- A value after optional space. The fuel bounds the steps, `depth` the
brackets that may still open. -/
def readValue : Nat → Nat → Bytes → Reading Json
  | 0, _, _ => failHere .endInValue []
  | fuel + 1, depth, bytes =>
      match skipSpace bytes with
      | [] => failHere .endInValue []
      | byte :: rest =>
          if byte = '['.toUInt8 then
            if depth ≤ 1 then failNext .nestedTooDeep (byte :: rest)
            else (readElements fuel (depth - 1) true rest).map (fun read => (.arr read.1, read.2))
          else if byte = '\x7b'.toUInt8 then
            if depth ≤ 1 then failNext .nestedTooDeep (byte :: rest)
            else
              (readMembers fuel (depth - 1) true rest).map
                (fun read => (ofFields read.1, read.2))
          else readScalar (byte :: rest)

/-- The elements of a list and its closing bracket. -/
def readElements : Nat → Nat → Bool → Bytes → Reading (List Json)
  | 0, _, _, _ => failHere .endInList []
  | fuel + 1, depth, isFirst, bytes =>
      match beforeElement isFirst bytes with
      | .error fault => .error fault
      | .ok (false, rest) => .ok ([], rest.drop 1)
      | .ok (true, rest) =>
          match readValue fuel depth rest with
          | .error fault => .error fault
          | .ok (item, after) =>
              (readElements fuel depth false after).map (fun read => (item :: read.1, read.2))

/-- The members of an object and its closing brace. -/
def readMembers : Nat → Nat → Bool → Bytes → Reading (List (String × Json))
  | 0, _, _, _ => failHere .endInObject []
  | fuel + 1, depth, isFirst, bytes =>
      match beforeMember isFirst bytes with
      | .error fault => .error fault
      | .ok (false, rest) => .ok ([], rest.drop 1)
      | .ok (true, rest) =>
          match readString (rest.drop 1) with
          | .error fault => .error fault
          | .ok (name, afterName) =>
              match readColon afterName with
              | .error fault => .error fault
              | .ok afterColon =>
                  match readValue fuel depth afterColon with
                  | .error fault => .error fault
                  | .ok (value, after) =>
                      (readMembers fuel depth false after).map
                        (fun read => ((name, value) :: read.1, read.2))

end

/-- Steps that suffice for a text: one for a value and one for its place in a
list or object, at every byte. -/
def stepsFor (bytes : Bytes) : Nat :=
  2 * bytes.length + 2

/-- Nothing but space may follow the value of a text. -/
def readEnd (bytes : Bytes) : Except Fault Unit :=
  match skipSpace bytes with
  | [] => .ok ()
  | byte :: rest => failNext .trailingCharacters (byte :: rest)

/-- The value of a whole text, with a bound on nesting. -/
def readWithin (limit : Nat) (bytes : Bytes) : Except Error Json :=
  let outcome : Except Fault Json :=
    match readValue (stepsFor bytes) limit bytes with
    | .error fault => .error fault
    | .ok (value, rest) => (readEnd rest).map (fun _ => value)
  match outcome with
  | .ok value => .ok value
  | .error fault => .error (fault.inText bytes)

/-- The value of a whole text, nested less than `nestingLimit` deep. -/
def read (bytes : Bytes) : Except Error Json :=
  readWithin nestingLimit bytes

def readText (text : String) : Except Error Json :=
  read (Text.encodeUtf8 text)

end LivePage.Json
