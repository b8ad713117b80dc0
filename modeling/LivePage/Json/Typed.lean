import LivePage.Json.Fault

/-!
Contract: JSON values that have to be of a type.

Owns:
- reading a value as a text, a number of a range, a truth value, a list of
  texts or an object, and what is wrong where it is none.

Does not own: what the values mean.
-/

namespace LivePage.Json

def asText : Json → Except Mismatch String
  | .str text => .ok text
  | value => .error (value.wrongType "a string")

def asFlag : Json → Except Mismatch Bool
  | .bool flag => .ok flag
  | value => .error (value.wrongType "a boolean")

/-- An integer between two bounds, which go by the name of a type. -/
def asIntegerIn (least greatest : Int) (typeName : String) : Json → Except Mismatch Int
  | .int number =>
      if least ≤ number ∧ number ≤ greatest then .ok number
      else .error (.outOfRange (Json.int number).described typeName)
  | value => .error (value.wrongType typeName)

def asInt64 : Json → Except Mismatch Int :=
  asIntegerIn (-9223372036854775808) 9223372036854775807 "i64"

def asNat8 : Json → Except Mismatch Int :=
  asIntegerIn 0 255 "u8"

def asTexts : Json → Except Mismatch (List String)
  | .arr items => items.mapM asText
  | value => .error (value.wrongType "a sequence")

def asObject : Json → Except Mismatch (List (String × Json))
  | .obj fields => .ok fields
  | value => .error (value.wrongType "a map")

end LivePage.Json
