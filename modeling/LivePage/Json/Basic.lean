import LivePage.Dict
import LivePage.Number.Text
import LivePage.Text.Bytes

/-!
Contract: JSON values.

Owns:
- the value type, with objects as entry lists in ascending key order;
- look-up, equality of values and the text form of a value.

Does not own: reading of JSON texts.
-/

namespace LivePage

/-- A JSON value. Integers are those of the signed and the unsigned 64 bit
range; every other number is a `Binary64`. -/
inductive Json where
  | null
  | bool (value : Bool)
  | int (value : Int)
  | float (value : Binary64)
  | str (text : String)
  | arr (items : List Json)
  | obj (fields : List (String × Json))
deriving Inhabited

namespace Json

/-- An object from fields in any order; a later field replaces an earlier one
of the same name. -/
def ofFields (fields : List (String × Json)) : Json :=
  .obj (Entries.ofList fields)

def strings (texts : List String) : Json :=
  .arr (texts.map .str)

/-- The value of a field of an object. -/
def field? (name : String) : Json → Option Json
  | .obj fields => Entries.find? name fields
  | _ => none

def text? : Json → Option String
  | .str text => some text
  | _ => none

mutual

/-- Equality of values; the two zeros among the floating point numbers are equal. -/
def same : Json → Json → Bool
  | .null, .null => true
  | .bool left, .bool right => left == right
  | .int left, .int right => left == right
  | .float left, .float right => left.sameValue right
  | .str left, .str right => left == right
  | .arr left, .arr right => sameItems left right
  | .obj left, .obj right => sameFields left right
  | _, _ => false

def sameItems : List Json → List Json → Bool
  | [], [] => true
  | left :: lefts, right :: rights => same left right && sameItems lefts rights
  | _, _ => false

def sameFields : List (String × Json) → List (String × Json) → Bool
  | [], [] => true
  | (leftName, left) :: lefts, (rightName, right) :: rights =>
      leftName == rightName && same left right && sameFields lefts rights
  | _, _ => false

end

/-- The form of one character inside a JSON string. -/
def escapedChar (char : Char) : String :=
  if char = '"' then "\\\""
  else if char = '\\' then "\\\\"
  else if char.toNat = 0x08 then "\\b"
  else if char.toNat = 0x0C then "\\f"
  else if char = '\n' then "\\n"
  else if char = '\r' then "\\r"
  else if char = '\t' then "\\t"
  else if char.toNat < 0x20 then
    "\\u00" ++ String.ofList [Text.hexDigit (char.toNat / 16), Text.hexDigit (char.toNat % 16)]
  else char.toString

/-- A string with its quotes. Only quotes, backslashes and controls are escaped. -/
def stringText (text : String) : String :=
  "\"" ++ String.join (text.toList.map escapedChar) ++ "\""

mutual

/-- The compact text of a value. -/
def render : Json → String
  | .null => "null"
  | .bool true => "true"
  | .bool false => "false"
  | .int value => toString value
  | .float value => value.jsonText
  | .str text => stringText text
  | .arr items => "[" ++ renderItems items ++ "]"
  | .obj fields => "\x7b" ++ renderFields fields ++ "\x7d"

def renderItems : List Json → String
  | [] => ""
  | [item] => render item
  | item :: next :: rest => render item ++ "," ++ renderItems (next :: rest)

def renderFields : List (String × Json) → String
  | [] => ""
  | [(name, value)] => stringText name ++ ":" ++ render value
  | (name, value) :: next :: rest =>
      stringText name ++ ":" ++ render value ++ "," ++ renderFields (next :: rest)

end

mutual

/-- Values as texts can hold them: integers of the 64 bit ranges, object
fields in ascending order. -/
def wellFormed : Json → Bool
  | .int value => leastInt64 ≤ value && value ≤ Int.ofNat greatestNat64
  | .arr items => wellFormedItems items
  | .obj fields => decide (Entries.Ascending fields) && wellFormedFields fields
  | _ => true

def wellFormedItems : List Json → Bool
  | [] => true
  | item :: rest => wellFormed item && wellFormedItems rest

def wellFormedFields : List (String × Json) → Bool
  | [] => true
  | (_, value) :: rest => wellFormed value && wellFormedFields rest

end

mutual

/-- How deep arrays and objects nest. -/
def depth : Json → Nat
  | .arr items => depthItems items + 1
  | .obj fields => depthFields fields + 1
  | _ => 0

def depthItems : List Json → Nat
  | [] => 0
  | item :: rest => max (depth item) (depthItems rest)

def depthFields : List (String × Json) → Nat
  | [] => 0
  | (_, value) :: rest => max (depth value) (depthFields rest)

end

end Json

end LivePage
