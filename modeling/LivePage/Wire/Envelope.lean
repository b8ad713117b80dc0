import LivePage.Json.Reader

/-!
Contract: requests as clients send them.

Owns:
- the request envelope with its page, type, data and blob;
- the split of a binary message into its first line and the bytes behind it;
- decoding of both kinds of message, and what can be wrong with one.

Does not own: putting a message together from fragments.
-/

namespace LivePage

/-- Why a message is refused. -/
inductive WireError where
  | invalidPayload (reason : Json.Error)
  | notAnObject
  | preambleTooLarge (limit : Nat)
  | messageTooLarge (limit : Nat)
deriving DecidableEq, Repr

namespace WireError

def message : WireError → String
  | .invalidPayload reason => "invalid request payload: " ++ reason.message
  | .notAnObject => "request payload must be a JSON object"
  | .preambleTooLarge limit => "binary preamble exceeds " ++ toString limit ++ " bytes"
  | .messageTooLarge limit => "message exceeds " ++ toString limit ++ " bytes"

/-- The message and those of its causes, the outermost first. -/
def chain (error : WireError) : List String :=
  match error with
  | .invalidPayload reason => [error.message, reason.message]
  | _ => [error.message]

end WireError

/-- A decoded request. -/
structure Envelope where
  pid : String
  requestType : String
  data : Dict Json
  blob : Option (List UInt8)
deriving Inhabited

namespace Envelope

/-- The data key that stands for the bytes behind the first line; data under
this key is never delivered. -/
def blobKey : String := "blob"

def get? (envelope : Envelope) (key : String) : Option Json :=
  envelope.data.get? key

/-- The data of a request: absent and `null` both mean none. -/
def dataOf (value : Option Json) : Except Json.Mismatch (Dict Json) :=
  match value with
  | none => .ok .empty
  | some .null => .ok .empty
  | some (.obj fields) => .ok (Dict.ofList fields)
  | some other => .error (other.wrongType "a map")

def textOf (value : Option Json) : Except Json.Mismatch (Option String) :=
  match value with
  | none => .ok none
  | some (.str text) => .ok (some text)
  | some other => .error (other.wrongType "a string")

/-- The fields of a request, in the order of their names; absence is noticed
after the types, in the order of the record. -/
def ofFields (fields : List (String × Json)) : Except Json.Mismatch Envelope := do
  let data ← dataOf (Entries.find? "data" fields)
  let pid ← textOf (Entries.find? "pid" fields)
  let requestType ← textOf (Entries.find? "type" fields)
  match pid, requestType with
  | some pid, some requestType => .ok ⟨pid, requestType, data.erase blobKey, none⟩
  | none, _ => .error (.missingField "pid")
  | some _, none => .error (.missingField "type")

def ofJson : Json → Except WireError Envelope
  | .obj fields =>
      match ofFields fields with
      | .ok envelope => .ok envelope
      | .error mismatch => .error (.invalidPayload (.ofValue mismatch))
  | _ => .error .notAnObject

def decodeBytes (bytes : List UInt8) : Except WireError Envelope :=
  match Json.read bytes with
  | .ok value => ofJson value
  | .error reason => .error (.invalidPayload reason)

/-- The request of a text message. -/
def decodeText (text : String) : Except WireError Envelope :=
  decodeBytes (Text.encodeUtf8 text)

end Envelope

/-- Keeps the bytes of the first line one by one, and ends with those kept and
the bytes behind the line break. The line may be at the limit, not beyond it. -/
def collectPreamble (limit : Nat) (preamble : Array UInt8) :
    List UInt8 → Except WireError (List UInt8 × List UInt8)
  | [] => .ok (preamble.toList, [])
  | byte :: rest =>
      if byte = '\n'.toUInt8 then .ok (preamble.toList, rest)
      else if preamble.size = limit then .error (.preambleTooLarge limit)
      else collectPreamble limit (preamble.push byte) rest

/-- The first line of a binary message, without its line break, and the bytes
behind it. A line longer than the limit is refused. -/
def splitPreamble (limit : Nat) (bytes : List UInt8) :
    Except WireError (List UInt8 × List UInt8) :=
  collectPreamble limit #[] bytes

namespace Envelope

/-- The request of a binary message; the bytes behind its first line are its blob. -/
def decodeBinary (limit : Nat) (bytes : List UInt8) : Except WireError Envelope :=
  match splitPreamble limit bytes with
  | .error error => .error error
  | .ok (preamble, rest) =>
      match decodeBytes preamble with
      | .error error => .error error
      | .ok envelope => .ok { envelope with blob := some rest }

end Envelope

end LivePage
