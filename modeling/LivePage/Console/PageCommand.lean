import LivePage.Console.Declared
import LivePage.Page.Materialize

/-!
Contract: commands to a live page.

Owns:
- the commands, what each answers, and what happens outside of the page.

Does not own: where the page is kept and how invocations reach a client.
-/

namespace LivePage.Console

open Json (nat)

/-- A parser with the instruction targets whose calls are reported. -/
structure ParserSetup where
  parser : PageParser
  reported : List String
deriving Inhabited

namespace ParserSetup

/-- Registers the declared definitions; those that are refused are reported. -/
def registerAll (registry : ComponentRegistry) (definitions : List Definition) :
    ComponentRegistry × List RegistryError :=
  definitions.foldl
    (fun (registry, errors) definition =>
      match registry.register definition with
      | .ok next => (next, errors)
      | .error error => (registry, errors ++ [error])) (registry, [])

/-- Adds a declared instruction handler. -/
def addInstruction (setup : ParserSetup) (target action : String) :
    Except RegistryError ParserSetup :=
  match setup.parser.registerInstruction target (declaredInstruction target action) with
  | .error error => .error error
  | .ok parser =>
      let isReported := action ≠ "fail" && action ≠ "import"
      .ok ⟨parser, if isReported then setup.reported ++ [target] else setup.reported⟩

/-- A parser as declared, and what was refused on the way. -/
def declared (input : Json) (locator : Option Locator) : ParserSetup × List RegistryError :=
  let start := if input.flagAt "core" true then ComponentRegistry.core else ComponentRegistry.empty
  let (registry, errors) := registerAll start ((input.listAt "definitions").map declaredDefinition)
  let parser := { PageParser.new registry with locator := locator }
  let parser := (input.textsAt "tag_namespaces").foldl PageParser.registerTagNamespace parser
  let parser := (input.textsAt "attribute_namespaces").foldl
    PageParser.registerAttributeNamespace parser
  (input.listAt "instructions").foldl
    (fun (setup, errors) entry =>
      match setup.addInstruction (entry.item 0).textOf (entry.item 1).textOf with
      | .ok next => (next, errors)
      | .error error => (setup, errors ++ [error])) (⟨parser, []⟩, errors)

/-- The reported calls of a reading. -/
def calls (setup : ParserSetup) (state : ParseState) : List Json :=
  (state.calls.filter (fun call => setup.reported.contains call.target)).map instructionCall

end ParserSetup

/-- What a command answers. -/
structure PageAnswer where
  page : Page
  result : Json
  effects : List PageEffect

/-- More events than one command lets a page dispatch. -/
def eventBound : Nat := 1000000

def drainResult (outcome : DrainOutcome) : Json :=
  match outcome with
  | .drained count => nat count
  | .failed error => eventFailure error
  | .unfinished => .null

/-- Makes the components of given markup. -/
def materializeMarkup (setup : ParserSetup) (files : FileSystem) (page : Page)
    (markup : String) (parent : Option String) : PageAnswer :=
  let (parsed, read) := setup.parser.run files (.ofText markup)
  let calls := (setup.calls parsed).map PageEffect.note
  match read with
  | .error error => ⟨page, parseFailure error, calls⟩
  | .ok () =>
      let (building, outcome) := page.state.materialize parsed.tree parent
      let result :=
        match outcome with
        | .ok ids => Json.strings ids
        | .error error => materializeFailure error
      ⟨page.withState building.page, result, calls ++ Page.effectsOf building.emitted⟩

def setProperty (page : Page) (target name : String) (value : Json) : PageAnswer :=
  match Property.ofJson? value with
  | none => ⟨page, propertyFailure, []⟩
  | some value =>
      match page.state.setProperty target name value with
      | .ok (next, emissions) => ⟨page.withState next, .str "ok", Page.effectsOf emissions⟩
      | .error error => ⟨page, eventFailure error, []⟩

/-- Carries out a command on a page; `call` names it, and a name that is not
known shows the page. -/
def pageCommand (setup : ParserSetup) (files : FileSystem) (page : Page) (step : Json) :
    PageAnswer :=
  let id := (step.textAt? "id").getD page.id
  let name := step.textAt "name"
  let state := page.state
  let same (result : Json) : PageAnswer := ⟨page, result, []⟩
  let changed (next : PageState) (result : Json) : PageAnswer := ⟨page.withState next, result, []⟩
  match step.textAt "call" with
  | "materialize" =>
      materializeMarkup setup files page (step.textAt "markup") (step.textAt? "parent")
  | "set" => setProperty page id name (step.part "value")
  | "get" => same ((state.property? id name).elim .null property)
  | "component" => same ((state.component? id).elim .null component)
  | "children" => same (Json.strings (state.children id))
  | "next_id" => changed state.drawId (.str state.nextId)
  | "discard" =>
      let (next, count) := state.discard id
      changed next (Json.ofFields [("removed", nat count), ("count", nat next.components.size)])
  | "browser" =>
      let info := Dict.ofList (step.part "info").fieldsOf
      changed (state.setBrowser info) (Json.ofDict (fun value => value) info)
  | "initialize" => changed state.markInitialized (.bool true)
  | "handler" => ⟨page.setHandler name (declaredHandler (step.listAt "actions")), .str "ok", []⟩
  | "listener" =>
      ⟨page.addListener id (step.textAt "type") (declaredHandler (step.listAt "actions")),
        .str "ok", []⟩
  | "queue" =>
      let next := state.queueEvent
        ⟨step.textAt "type", id, step.part "data", declaredBytes? (step.part "blob")⟩
      changed next (nat next.queue.length)
  | "clear" => changed state.clearQueue (nat 0)
  | "process" =>
      let (next, effects, outcome) := page.drain eventBound 0
      ⟨next, Json.ofFields [("processed", drainResult outcome),
        ("pending", nat next.state.queue.length)], effects⟩
  | "invoke" =>
      ⟨page, .str "ok", Page.effectsOf (state.emit (declaredInvocation (step.part "invocation")))⟩
  | "bind" => changed (state.bind .observer) (.bool true)
  | "unbind" => changed state.unbind (.bool false)
  | "destroy" => ⟨page.destroy, .bool true, []⟩
  | _ => same (Console.page state)

end LivePage.Console
