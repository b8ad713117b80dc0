import LivePage.Json.Basic

/-!
Contract: calls that the server asks the client to make.

Owns:
- the invocation, its object form with short keys, its record form, and the
  texts of both;
- the text of a batch.

Does not own: reading of an invocation back from its text.
-/

namespace LivePage

/-- A function that the client calls, on a target component or on none. -/
structure Invocation where
  function : String
  target : Option String
  arguments : List Json
deriving Inhabited

namespace Invocation

def alertFunction : String := "fujion.alert"

/-- An invocation without target. -/
def onClient (function : String) (arguments : List Json) : Invocation :=
  ⟨function, none, arguments⟩

/-- Shows a message to the user. -/
def alert (text title flavor : String) : Invocation :=
  onClient alertFunction [.str text, .str title, .str flavor]

def addArgument (invocation : Invocation) (argument : Json) : Invocation :=
  { invocation with arguments := invocation.arguments ++ [argument] }

/-- The object form: the function, the target if there is one, the arguments. -/
def toMap (invocation : Invocation) : Dict Json :=
  let named : Dict Json := Dict.empty.insert "fcn" (.str invocation.function)
  let targeted : Dict Json :=
    match invocation.target with
    | some target => named.insert "tgt" (.str target)
    | none => named
  targeted.insert "arg" (.arr invocation.arguments)

def toJson (invocation : Invocation) : Json :=
  .obj invocation.toMap.toList

/-- The text of a frame with one invocation. -/
def encode (invocation : Invocation) : String :=
  invocation.toJson.render

/-- The fields of the record in the order of their declaration; an absent target
has none. -/
def fields (invocation : Invocation) : List (String × Json) :=
  [("fcn", .str invocation.function)] ++
    (match invocation.target with
      | some target => [("tgt", .str target)]
      | none => []) ++
    [("arg", .arr invocation.arguments)]

/-- The text of the record. -/
def recordText (invocation : Invocation) : String :=
  (Json.obj invocation.fields).render

/-- Writes invocations one behind another, each with its mark in front, and
counts them. -/
def writeBatch (payload : String) (count : Nat) : List Invocation → String × Nat
  | [] => (payload, count)
  | invocation :: rest =>
      writeBatch (payload.push (if count = 0 then '[' else ',') ++ invocation.encode) (count + 1)
        rest

/-- The text of some invocations as one list. -/
def batchText (invocations : List Invocation) : String :=
  (writeBatch "" 0 invocations).1.push ']'

/-- The text of a frame with several invocations; none without any. -/
def encodeBatch (invocations : List Invocation) : Option String :=
  if (writeBatch "" 0 invocations).2 = 0 then none else some (batchText invocations)

end Invocation

end LivePage
