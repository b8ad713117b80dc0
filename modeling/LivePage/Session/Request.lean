import LivePage.Json.Typed
import LivePage.Text.Quoted
import LivePage.Wire.Envelope

/-!
Contract: a client's request on the session that it arrived on.

Owns:
- the request and its parameters;
- what can be wrong with a parameter.

Does not own: what is done about a request.
-/

namespace LivePage

/-- A decoded request. -/
structure Request where
  /-- The number of the session. -/
  session : Nat
  sessionId : String
  envelope : Envelope
deriving Inhabited

/-- Why a request cannot be served as it stands. -/
inductive RequestError where
  | missingParameter (name : String)
  | invalidParameter (name : String) (reason : Json.Mismatch)
  | noPage (session : String)
deriving DecidableEq, Repr

namespace RequestError

def message : RequestError → String
  | .missingParameter name => "missing request parameter `" ++ name ++ "`"
  | .invalidParameter name reason =>
      "invalid request parameter `" ++ name ++ "`: " ++ reason.message
  | .noPage session => "session " ++ session ++ " is not bound to a page"

/-- The message and those of its causes, the outermost first. -/
def chain (error : RequestError) : List String :=
  match error with
  | .invalidParameter _ reason => [error.message, reason.message]
  | _ => [error.message]

end RequestError

namespace Request

def pid (request : Request) : String :=
  request.envelope.pid

def requestType (request : Request) : String :=
  request.envelope.requestType

def get? (request : Request) (key : String) : Option Json :=
  request.envelope.get? key

/-- The text of a value that is one. -/
def text? (request : Request) (key : String) : Option String :=
  (request.get? key).bind Json.text?

/-- A parameter of a type; `null` counts as absent. -/
def param {α : Type} (request : Request) (read : Json → Except Json.Mismatch α) (key : String) :
    Except RequestError (Option α) :=
  match request.get? key with
  | none => .ok none
  | some .null => .ok none
  | some value =>
      match read value with
      | .ok typed => .ok (some typed)
      | .error reason => .error (.invalidParameter key reason)

/-- A parameter that has to be present. -/
def required {α : Type} (request : Request) (read : Json → Except Json.Mismatch α)
    (key : String) : Except RequestError α :=
  match request.param read key with
  | .error error => .error error
  | .ok none => .error (.missingParameter key)
  | .ok (some value) => .ok value

/-- What an inspection of the request shows. -/
def inspection (request : Request) : String :=
  "ClientRequest \x7b session: " ++ Text.quoted request.sessionId ++
    ", pid: " ++ Text.quoted request.pid ++
    ", type: " ++ Text.quoted request.requestType ++ ", .. \x7d"

end Request

end LivePage
