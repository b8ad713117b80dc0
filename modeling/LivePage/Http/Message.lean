import LivePage.Http.Target
import LivePage.Json.Basic
import LivePage.Text.Bytes

/-!
Contract: HTTP requests and responses.

Owns:
- requests with their method, target and header fields, and what can be wrong
  with one;
- responses with their status, content type, entity tag and body.

Does not own: which request gets which response.
-/

namespace LivePage

/-- Why something is no request. -/
inductive HttpError where
  | invalidMethod
  | invalidTarget (reason : TargetError)
  | invalidHeaderName
  | invalidHeaderValue
deriving DecidableEq, Repr

def HttpError.message : HttpError → String
  | .invalidMethod => "invalid HTTP method"
  | .invalidTarget reason => reason.message
  | .invalidHeaderName => "invalid HTTP header name"
  | .invalidHeaderValue => "failed to parse header value"

structure HttpRequest where
  method : String
  target : Target
  /-- Names in lower case with their values, in order. -/
  headers : List (String × String)
deriving DecidableEq, Repr, Inhabited

namespace HttpRequest

def isTokenChar (char : Char) : Bool :=
  char.isAlphanum || "!#$%&'*+-.^_`|~".toList.contains char

/-- Text of at least one character, all of those that names are made of. -/
def isToken (text : String) : Bool :=
  !text.isEmpty && text.toList.all isTokenChar

/-- Text without controls other than tabs. -/
def isHeaderValue (text : String) : Bool :=
  text.toList.all (fun char => char = '\t' || (0x20 ≤ char.toNat && char.toNat ≠ 0x7F))

def readHeader (header : String × String) : Except HttpError (String × String) :=
  if !isToken header.1 then .error .invalidHeaderName
  else if !isHeaderValue header.2 then .error .invalidHeaderValue
  else .ok (Text.lowerAscii header.1, header.2)

/-- A request from its parts. The method is looked at first, the header fields last. -/
def build (method target : String) (headers : List (String × String)) :
    Except HttpError HttpRequest :=
  if !isToken method then .error .invalidMethod
  else
    match Target.read target with
    | .error reason => .error (.invalidTarget reason)
    | .ok target => (headers.mapM readHeader).map (fun headers => ⟨method, target, headers⟩)

/-- The value of the first header field of a name. -/
def header? (request : HttpRequest) (name : String) : Option String :=
  (request.headers.find? (fun header => header.1 == name)).map Prod.snd

end HttpRequest

structure HttpResponse where
  status : Nat
  contentType : Option String
  etag : Option String
  body : List UInt8
deriving DecidableEq, Repr, Inhabited

namespace HttpResponse

/-- A response without content. -/
def bare (status : Nat) : HttpResponse :=
  ⟨status, none, none, []⟩

def ofJson (status : Nat) (content : Json) : HttpResponse :=
  ⟨status, some "application/json", none, Text.encodeUtf8 content.render⟩

def ofText (status : Nat) (content : String) : HttpResponse :=
  ⟨status, some "text/plain; charset=utf-8", none, Text.encodeUtf8 content⟩

/-- A refusal with a word for its kind and a message. -/
def refusal (status : Nat) (kind message : String) : HttpResponse :=
  ofJson status (Json.ofFields [("error", .str kind), ("message", .str message)])

def notFound (message : String) : HttpResponse :=
  refusal 404 "not_found" message

def badRequest (message : String) : HttpResponse :=
  refusal 400 "bad_request" message

def withoutBody (response : HttpResponse) : HttpResponse :=
  { response with body := [] }

end HttpResponse

end LivePage
