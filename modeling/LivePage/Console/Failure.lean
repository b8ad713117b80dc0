import LivePage.Blueprint.Cache
import LivePage.Json.Access
import LivePage.Page.State
import LivePage.Wire.Envelope

/-!
Contract: errors as the console reports them.

Owns:
- the name of each kind of error, and the object with it and the message.

Does not own: the wording of the messages.
-/

namespace LivePage.Console

/-- An error by its kind and its message. -/
def failure (kind message : String) : Json :=
  Json.ofFields [("error", .str kind), ("message", .str message)]

def childFailure (error : ChildError) : Json :=
  let kind :=
    match error with
    | .notAdmitted _ _ => "InvalidChild"
    | .tooMany _ _ _ => "TooManyChildren"
  failure kind error.message

def registryFailure (error : RegistryError) : Json :=
  let kind :=
    match error with
    | .duplicateTag _ => "DuplicateTag"
    | .duplicateInstruction _ => "DuplicateProcessingInstruction"
  failure kind error.message

def sourceFailure (error : SourceError) : Json :=
  let kind :=
    match error with
    | .notFound _ => "NotFound"
    | .invalidLocation _ _ => "InvalidLocation"
    | .outsideRoot _ => "OutsideRoot"
    | .unsupportedScheme _ => "UnsupportedScheme"
    | .unreadable _ => "Io"
    | .malformed _ => "Malformed"
  failure kind error.message

def parseFailure (error : ParseError) : Json :=
  match error with
  | .child reason => childFailure reason
  | .source reason => sourceFailure reason
  | .unknownTag _ => failure "UnknownTag" error.message
  | .unknownAttribute _ _ => failure "UnknownAttribute" error.message
  | .unresolvableAttribute _ => failure "UnresolvableAttribute" error.message
  | .textNotAllowed _ => failure "TextNotAllowed" error.message
  | .unknownInstruction _ => failure "UnrecognizedPi" error.message
  | .invalidInstruction _ _ => failure "InvalidPi" error.message
  | .misplacedNode _ => failure "UnrecognizedNode" error.message
  | .cardinality _ _ => failure "Cardinality" error.message
  | .wrongRoot _ => failure "InvalidRoot" error.message
  | .importsTooDeep => failure "ImportDepth" error.message

/-- A page that cannot be loaded, with the reason. -/
def cacheFailure (error : CacheError) : Json :=
  match error with
  | .load _ reason =>
      Json.ofFields [("error", .str "Load"), ("message", .str error.message),
        ("source", parseFailure reason)]

def urlFailure (error : UrlError) : Json :=
  failure "Url" error.message

def wireFailure (error : WireError) : Json :=
  let kind :=
    match error with
    | .invalidPayload _ => "InvalidPayload"
    | .notAnObject => "NotAnObject"
    | .preambleTooLarge _ => "PreambleTooLarge"
    | .messageTooLarge _ => "MessageTooLarge"
  failure kind error.message

def eventFailure (error : EventError) : Json :=
  let kind :=
    match error with
    | .unknownTarget _ => "UnknownTarget"
    | .missingHandler _ => "MissingHandler"
    | .handler _ => "Handler"
    | .pageDestroyed _ => "PageDestroyed"
  failure kind error.message

def materializeFailure (error : MaterializeError) : Json :=
  let kind :=
    match error with
    | .invalidValue _ _ _ _ => "InvalidValue"
    | .unknownParent _ => "UnknownParent"
    | .pageDestroyed _ => "PageDestroyed"
  failure kind error.message

/-- A value that is no property. -/
def propertyFailure : Json :=
  failure "PropertyValue" Property.notAProperty

/-- The word for success, or the report of an error. -/
def okOr {ε : Type} (report : ε → Json) : Except ε Unit → Json
  | .ok () => .str "ok"
  | .error error => report error

end LivePage.Console
