import LivePage.Json.Skip
import LivePage.Wire.Invocation

/-!
Contract: reading an invocation from the text of a frame, or from a value.

Owns:
- the two accepted forms, an object with short keys and a list of the fields
  in order of declaration, read without an intermediate value;
- the faults of either form, at the spot where each is noticed;
- the same two forms as values already read.

Does not own: the written form.
-/

namespace LivePage.Invocation

open LivePage.Json

def shapeName : String := "struct ClientInvocation"

def lengthName : String := "struct ClientInvocation with 3 elements"

/-- The fault of a value that is not of the type asked for. A scalar is read
first, so the spot lies behind it; an array or object is not entered. -/
def unexpectedValue (expected : String) (bytes : Bytes) : Fault :=
  match bytes with
  | byte :: rest =>
      if byte = '['.toUInt8 then
        ⟨.mismatch (Json.wrongType (.arr []) expected), (byte :: rest).length⟩
      else if byte = '\x7b'.toUInt8 then
        ⟨.mismatch (Json.wrongType (.obj []) expected), (byte :: rest).length⟩
      else
        match readScalar (byte :: rest) with
        | .error fault => fault
        | .ok (value, after) => ⟨.mismatch (Json.wrongType value expected), after.length⟩
  | [] => ⟨.endInValue, 0⟩

def readName (bytes : Bytes) : Reading String :=
  match skipSpace bytes with
  | [] => failHere .endInValue []
  | byte :: rest =>
      if byte = '"'.toUInt8 then readString rest
      else .error (unexpectedValue "a string" (byte :: rest))

/-- A string, or `null` for none. -/
def readTarget (bytes : Bytes) : Reading (Option String) :=
  match skipSpace bytes with
  | byte :: rest =>
      if byte = 'n'.toUInt8 then (readWord ['u', 'l', 'l'] rest).map (fun after => (none, after))
      else (readName (byte :: rest)).map (fun read => (some read.1, read.2))
  | [] => failHere .endInValue []

def readArguments (steps : Nat) (bytes : Bytes) : Reading (List Json) :=
  match skipSpace bytes with
  | [] => failHere .endInValue []
  | byte :: rest =>
      if byte = '['.toUInt8 then readElements steps (nestingLimit - 2) true rest
      else .error (unexpectedValue "a sequence" (byte :: rest))

/-- The bytes left behind a closing mark, if it comes next. -/
def remainingBehind (close : Char) (bytes : Bytes) : Nat :=
  match skipSpace bytes with
  | byte :: rest => if byte = close.toUInt8 then rest.length else rest.length + 1
  | [] => 0

/-- The end of a list whose fields have all been read. -/
def closeList (bytes : Bytes) : Except Fault Bytes :=
  match skipSpace bytes with
  | [] => failHere .endInList []
  | byte :: rest =>
      if byte = ']'.toUInt8 then .ok rest
      else if byte = ','.toUInt8 then
        match skipSpace rest with
        | next :: after =>
            if next = ']'.toUInt8 then failNext .trailingComma (next :: after)
            else failNext .trailingCharacters (next :: after)
        | [] => failHere .trailingCharacters []
      else failNext .trailingCharacters (byte :: rest)

/-- The list form, behind its opening bracket. Fields missing at the end take
their defaults, but the function has none. -/
def readListForm (steps : Nat) (bytes : Bytes) : Except Fault (Invocation × Bytes) := do
  let (hasFunction, atFunction) ← beforeElement true bytes
  if !hasFunction then
    throw ⟨.mismatch (.wrongLength 0 lengthName), remainingBehind ']' atFunction⟩
  let (function, afterFunction) ← readName atFunction
  let (hasTarget, atTarget) ← beforeElement false afterFunction
  if !hasTarget then
    return (⟨function, none, []⟩, ← closeList atTarget)
  let (target, afterTarget) ← readTarget atTarget
  let (hasArguments, atArguments) ← beforeElement false afterTarget
  if !hasArguments then
    return (⟨function, target, []⟩, ← closeList atArguments)
  let (arguments, afterArguments) ← readArguments steps atArguments
  return (⟨function, target, arguments⟩, ← closeList afterArguments)

/-- The fields of an object form read so far. -/
structure Fields where
  function : Option String
  target : Option (Option String)
  arguments : Option (List Json)

/-- The value of one member, behind its colon; an unknown member is skipped. -/
def Fields.readMember (fields : Fields) (steps : Nat) (name : String) (bytes : Bytes) :
    Reading Fields :=
  if name = "fcn" then
    (readName bytes).map (fun read => ({ fields with function := some read.1 }, read.2))
  else if name = "tgt" then
    (readTarget bytes).map (fun read => ({ fields with target := some read.1 }, read.2))
  else if name = "arg" then
    (readArguments steps bytes).map
      (fun read => ({ fields with arguments := some read.1 }, read.2))
  else (skipValue steps bytes).map (fun rest => (fields, rest))

def Fields.has (fields : Fields) (name : String) : Bool :=
  (name = "fcn" && fields.function.isSome) || (name = "tgt" && fields.target.isSome) ||
    (name = "arg" && fields.arguments.isSome)

/-- The object form, behind its opening brace. -/
def readObjectForm (steps : Nat) :
    Nat → Bool → Fields → Bytes → Except Fault (Invocation × Bytes)
  | 0, _, _, _ => failHere .endInObject []
  | fuel + 1, isFirst, fields, bytes => do
      let (hasMember, atMember) ← beforeMember isFirst bytes
      if hasMember then
        let (name, afterName) ← readString (atMember.drop 1)
        if fields.has name then
          throw ⟨.mismatch (.duplicateField name), remainingBehind '\x7d' afterName⟩
        let afterColon ← readColon afterName
        let (more, rest) ← fields.readMember steps name afterColon
        readObjectForm steps fuel false more rest
      else
        match fields.function with
        | some function =>
            return (⟨function, fields.target.getD none, fields.arguments.getD []⟩,
              atMember.drop 1)
        | none =>
            throw ⟨.mismatch (.missingField "fcn"), remainingBehind '\x7d' atMember⟩

def readForm (bytes : Bytes) : Reading Invocation :=
  let steps := stepsFor bytes
  match skipSpace bytes with
  | [] => failHere .endInValue []
  | byte :: rest =>
      if byte = '['.toUInt8 then readListForm steps rest
      else if byte = '\x7b'.toUInt8 then readObjectForm steps steps true ⟨none, none, none⟩ rest
      else .error (unexpectedValue shapeName (byte :: rest))

/-- The invocation of a whole text. -/
def decode (text : String) : Except Json.Error Invocation :=
  let bytes := Text.encodeUtf8 text
  let outcome : Except Fault Invocation := do
    let (invocation, rest) ← readForm bytes
    readEnd rest
    return invocation
  match outcome with
  | .ok invocation => .ok invocation
  | .error fault => .error (fault.inText bytes)

/-! ### Values already read -/

def functionOf (value : Option Json) : Except Mismatch (Option String) :=
  match value with
  | none => .ok none
  | some (.str text) => .ok (some text)
  | some other => .error (other.wrongType "a string")

/-- A string; absent and `null` both mean none. -/
def targetOf (value : Option Json) : Except Mismatch (Option String) :=
  match value with
  | none => .ok none
  | some .null => .ok none
  | some (.str text) => .ok (some text)
  | some other => .error (other.wrongType "a string")

def argumentsOf (value : Option Json) : Except Mismatch (List Json) :=
  match value with
  | none => .ok []
  | some (.arr items) => .ok items
  | some other => .error (other.wrongType "a sequence")

/-- The fields of an object, in the order of their names; absence is noticed
after the types. -/
def ofFields (fields : List (String × Json)) : Except Mismatch Invocation := do
  let arguments ← argumentsOf (Entries.find? "arg" fields)
  let function ← functionOf (Entries.find? "fcn" fields)
  let target ← targetOf (Entries.find? "tgt" fields)
  match function with
  | some function => .ok ⟨function, target, arguments⟩
  | none => .error (.missingField "fcn")

/-- The fields of a list, in the order of their declaration. -/
def ofItems (items : List Json) : Except Mismatch Invocation := do
  let function ← functionOf items[0]?
  match function with
  | none => .error (.wrongLength 0 lengthName)
  | some function =>
      let target ← targetOf items[1]?
      let arguments ← argumentsOf items[2]?
      if items.length ≤ 3 then .ok ⟨function, target, arguments⟩
      else .error (.wrongLength items.length "fewer elements in array")

/-- The invocation of a value. -/
def ofJson : Json → Except Mismatch Invocation
  | .arr items => ofItems items
  | .obj fields => ofFields fields
  | other => .error (other.wrongType shapeName)

end LivePage.Invocation
