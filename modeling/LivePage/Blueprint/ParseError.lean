import LivePage.Component.Definition
import LivePage.Location.Locator

/-!
Contract: why markup is no page.

Owns:
- the causes, their wording, and the causes behind them.

Does not own: which part of the markup raises a cause.
-/

namespace LivePage

/-- How deep imports may nest. -/
def importLimit : Nat := 16

inductive ParseError where
  | unknownTag (tag : String)
  | unknownAttribute (tag name : String)
  | unresolvableAttribute (name : String)
  | textNotAllowed (tag : String)
  | unknownInstruction (target : String)
  | invalidInstruction (target reason : String)
  | misplacedNode (kind : String)
  | cardinality (tag : String) (violations : List CardinalityViolation)
  | child (reason : ChildError)
  | wrongRoot (name : String)
  | importsTooDeep
  | source (reason : SourceError)
deriving DecidableEq, Repr

namespace ParseError

def message : ParseError → String
  | .unknownTag tag => "unrecognized tag: " ++ tag
  | .unknownAttribute tag name =>
      "unrecognized attribute `" ++ name ++ "` for tag `" ++ tag ++ "`"
  | .unresolvableAttribute name =>
      "attribute `" ++ name ++ "` belongs to an unresolvable namespace"
  | .textNotAllowed tag => "text content is not allowed for tag `" ++ tag ++ "`"
  | .unknownInstruction target => "unrecognized processing instruction: " ++ target
  | .invalidInstruction target reason =>
      "invalid `" ++ target ++ "` processing instruction: " ++ reason
  | .misplacedNode kind => "unrecognized document node: " ++ kind
  | .cardinality tag violations =>
      "cardinality violations for tag `" ++ tag ++ "`:\n" ++
        Text.joinWith "\n" (violations.map CardinalityViolation.message)
  | .child reason => reason.message
  | .wrongRoot name => "document root must be `fsp`, found `" ++ name ++ "`"
  | .importsTooDeep => "page imports nest deeper than " ++ toString importLimit ++ " levels"
  | .source reason => reason.message

/-- The message and those of its causes, the outermost first. -/
def chain (error : ParseError) : List String :=
  match error with
  | .source (.unreadable reason) => [error.message, reason.message]
  | _ => [error.message]

end ParseError

end LivePage
