import LivePage.Json.Basic

/-!
Contract: lenient access to the parts of a JSON value.

Owns:
- look-ups that give a default where a part is absent or of another type.

Does not own: values that have to be of a type.
-/

namespace LivePage.Json

/-- A field of an object; null where there is none. -/
def part (value : Json) (name : String) : Json :=
  (value.field? name).getD .null

def isPresent (value : Json) (name : String) : Bool :=
  match value.part name with
  | .null => false
  | _ => true

/-- The text of a string, and no text for any other value. -/
def textOf : Json → String
  | .str text => text
  | _ => ""

def nat? : Json → Option Nat
  | .int value => some value.toNat
  | _ => none

def natOf (value : Json) : Nat :=
  value.nat?.getD 0

def itemsOf : Json → List Json
  | .arr items => items
  | _ => []

def fieldsOf : Json → List (String × Json)
  | .obj fields => fields
  | _ => []

/-- An item of a list; null where there is none. -/
def item (value : Json) (index : Nat) : Json :=
  (value.itemsOf[index]?).getD .null

def textAt (value : Json) (name : String) : String :=
  (value.part name).textOf

def textAt? (value : Json) (name : String) : Option String :=
  (value.part name).text?

def natAt (value : Json) (name : String) : Nat :=
  (value.part name).natOf

/-- A truth value, with what it is where there is none. -/
def flagAt (value : Json) (name : String) (default : Bool) : Bool :=
  match value.part name with
  | .bool flag => flag
  | _ => default

def listAt (value : Json) (name : String) : List Json :=
  (value.part name).itemsOf

def textsAt (value : Json) (name : String) : List String :=
  (value.listAt name).map textOf

/-! ### Building -/

def nat (value : Nat) : Json :=
  .int (Int.ofNat value)

def nats (values : List Nat) : Json :=
  .arr (values.map nat)

/-- A string, or null where there is none. -/
def optionalText : Option String → Json
  | some text => .str text
  | none => .null

/-- A number, or null where there is none. -/
def optionalNat : Option Nat → Json
  | some value => nat value
  | none => .null

/-- Bytes in hexadecimal, or null where there are none. -/
def optionalHex : Option (List UInt8) → Json
  | some bytes => .str (Text.hexText bytes)
  | none => .null

/-- An object whose fields come from a dictionary. -/
def ofDict {α : Type} (value : α → Json) (dict : Dict α) : Json :=
  .obj (dict.toList.map (fun entry => (entry.1, value entry.2)))

end LivePage.Json
