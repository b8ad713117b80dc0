import LivePage.Console.Snapshot
import LivePage.Page.Reaction

/-!
Contract: parts of a server declared as JSON.

Owns:
- definitions, attribute kinds, invocations and bytes read from declarations;
- instruction handlers and event handlers declared by what they do.

Does not own: declarations that are not understood, which stand for the defaults.
-/

namespace LivePage.Console

open Json

def declaredKind : Json → AttributeKind
  | .str "boolean" => .boolean
  | .str "integer" => .integer
  | .str "number" => .number
  | .str _ => .text
  | kind => .choice (kind.textsAt "choice")

def declaredContent? (input : Json) : Option ContentHandling :=
  match input.textAt? "content" with
  | some "ignore" => some .ignore
  | some "attribute" => some .asAttribute
  | some "child" => some .asChild
  | some _ => some .reject
  | none => none

/-- A range declared by the items of a list from an index on. -/
def declaredRange (list : Json) (index : Nat) : Cardinality :=
  ⟨(list.item index).natOf, (list.item (index + 1)).nat?⟩

/-- A definition: what is declared is added to the basic one of its tag. -/
def declaredDefinition (input : Json) : Definition :=
  let start := Definition.basic (input.textAt "tag") (input.textAt "widget")
  let start := (declaredContent? input).elim start start.withContent
  let start := (input.listAt "attributes").foldl
    (fun definition entry =>
      definition.withAttribute (entry.item 0).textOf (declaredKind (entry.item 1))) start
  let start := if input.flagAt "open" false then start.withOpenAttributes else start
  let start := (input.listAt "children").foldl
    (fun definition entry =>
      definition.withChild (entry.item 0).textOf (declaredRange entry 1)) start
  let start :=
    if input.isPresent "any" then start.withAnyChild (declaredRange (input.part "any") 0) else start
  match input.part "parents" with
  | .arr parents => start.withParents (parents.map textOf)
  | _ => start

def declaredInvocation (input : Json) : Invocation :=
  let alert := input.part "alert"
  let start :=
    if input.isPresent "alert" then
      Invocation.alert (alert.item 0).textOf (alert.item 1).textOf (alert.item 2).textOf
    else if input.flagAt "global" false then
      Invocation.onClient (input.textAt "function") (input.listAt "arguments")
    else ⟨input.textAt "function", input.textAt? "target", input.listAt "arguments"⟩
  (input.listAt "with").foldl Invocation.addArgument start

/-- Bytes declared as texts, hexadecimal digits and repeated bytes. -/
def declaredBytes (parts : Json) : List UInt8 :=
  parts.itemsOf.flatMap (fun part =>
    match part.field? "text", part.field? "hex" with
    | some text, _ => Text.encodeUtf8 text.textOf
    | none, some hex => (Text.hexBytes? hex.textOf.toList).getD []
    | none, none =>
        let repeated := part.part "repeat"
        List.replicate (repeated.item 1).natOf (UInt8.ofNat (repeated.item 0).natOf))

def declaredBytes? : Json → Option (List UInt8)
  | .arr parts => some (declaredBytes (.arr parts))
  | _ => none

/-- An instruction handler by the name of what it does: it fails, imports its
data as markup, or notes its data on the enclosing element. -/
def declaredInstruction (target action : String) : InstructionHandler := fun site data =>
  match action with
  | "fail" => .fail (.invalidInstruction target data)
  | "import" => .graftOnly (.ofText data)
  | _ => .change (fun tree => tree.setAttribute site.cursor.parent ("pi-" ++ target) data)

/-- Goes on after a step that may fail, or fails with it. -/
def onSuccess (next : Reaction) : Except EventError Unit → Reaction
  | .ok () => next
  | .error error => .fail error

/-- What an action without actions of its own does before the rest. -/
def plainAction (event : Event) (next : Reaction) (action : Json) : Reaction :=
  let targetAt (index : Nat) : String := ((action.item index).text?).getD event.target
  match (action.item 0).textOf with
  | "log" => .note (eventRecord event (action.item 1)) next
  | "set" =>
      match Property.ofJson? (action.item 3) with
      | none => .fail (.handler Property.notAProperty)
      | some value => .setProperty (targetAt 1) (action.item 2).textOf value (onSuccess next)
  | "queue" => .queueEvent ⟨(action.item 1).textOf, targetAt 2, action.item 3, none⟩ next
  | "invoke" =>
      .invoke ⟨(action.item 2).textOf, (action.item 1).text?, (action.item 3).itemsOf⟩ next
  | "fail" => .fail (.handler (action.item 1).textOf)
  | "clear" => .clearQueue next
  | "destroy" => .destroy next
  | "discard" => .discard (targetAt 1) (fun _ => next)
  | _ => next

mutual

/-- What an action does before the rest. -/
def declaredAction (event : Event) (next : Reaction) : Json → Reaction
  | .arr [.str "if_data", value, .arr actions] =>
      if event.data.same value then declaredActions event next actions else next
  | .arr [.str "handler", .str handlerName, .arr actions] =>
      .setHandler handlerName (fun event => declaredActions event .done actions) next
  | .arr [.str "listen", target, .str eventType, .arr actions] =>
      .addListener (target.text?.getD event.target) eventType
        (fun event => declaredActions event .done actions) next
  | action => plainAction event next action

/-- What a list of actions does before the rest. -/
def declaredActions (event : Event) (next : Reaction) : List Json → Reaction
  | [] => next
  | action :: rest => declaredAction event (declaredActions event next rest) action

end

/-- An event handler declared by its actions, of which a failing one ends the list. -/
def declaredHandler (actions : List Json) : EventHandler := fun event =>
  declaredActions event .done actions

end LivePage.Console
