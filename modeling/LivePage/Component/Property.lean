import LivePage.Json.Basic
import LivePage.Text.Blank
import LivePage.Text.Cut

/-!
Contract: typed values of component properties.

Owns:
- the value type, its JSON form, its display and reading back from JSON;
- attribute kinds and the conversion of raw attribute text to typed values.

Does not own: which attributes a component has.
-/

namespace LivePage

inductive Property where
  | boolean (value : Bool)
  | integer (value : Int)
  | number (value : Binary64)
  | text (value : String)
deriving DecidableEq, Repr, Inhabited

namespace Property

def toJson : Property → Json
  | .boolean value => .bool value
  | .integer value => .int value
  | .number value => .float value
  | .text value => .str value

def display : Property → String
  | .boolean value => toString value
  | .integer value => toString value
  | .number value => value.displayText
  | .text value => value

def asText : Property → Option String
  | .text value => some value
  | _ => none

def kindName : Property → String
  | .boolean _ => "boolean"
  | .integer _ => "integer"
  | .number _ => "number"
  | .text _ => "text"

/-- The nearest floating point number to an integer. -/
def nearest (value : Int) : Binary64 :=
  (Binary64.ofRatio? (value < 0) value.natAbs 1).getD .zero

/-- A scalar read as a property; integers beyond the signed range become
numbers. Null, arrays and objects are none. -/
def ofJson? : Json → Option Property
  | .bool value => some (.boolean value)
  | .int value =>
      if leastInt64 ≤ value ∧ value ≤ greatestInt64 then some (.integer value)
      else some (.number (nearest value))
  | .float value => some (.number value)
  | .str content => some (.text content)
  | _ => none

/-- What is said of a value that is no property. -/
def notAProperty : String :=
  "data did not match any variant of untagged enum PropertyValue"

end Property

/-- What an attribute's text is converted to. -/
inductive AttributeKind where
  | text
  | boolean
  | integer
  | number
  | choice (choices : List String)
deriving DecidableEq, Repr

namespace AttributeKind

def sameIgnoringCase (left right : String) : Bool :=
  Text.lowerAscii left == Text.lowerAscii right

/-- The description of the values that a kind accepts. -/
def expected : AttributeKind → String
  | .text => "text"
  | .boolean => "a boolean"
  | .integer => "an integer"
  | .number => "a number"
  | .choice choices => "one of " ++ Text.joinWith ", " choices

/-- Converts raw text. White space around it counts only for text, and case
counts only for text and numbers; a choice becomes its declared form. -/
def coerce? (kind : AttributeKind) (raw : String) : Option Property :=
  match kind with
  | .text => some (.text raw)
  | .boolean =>
      if sameIgnoringCase (Text.trimText raw) "true" then some (.boolean true)
      else if sameIgnoringCase (Text.trimText raw) "false" then some (.boolean false)
      else none
  | .integer => (readInt64? (Text.trim raw.toList)).map .integer
  | .number => (readNumber? (Text.trim raw.toList)).map .number
  | .choice choices =>
      (choices.find? (fun choice => sameIgnoringCase choice (Text.trimText raw))).map .text

end AttributeKind

end LivePage
