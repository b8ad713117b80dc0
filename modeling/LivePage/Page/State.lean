import LivePage.Page.Component
import LivePage.Wire.Invocation

/-!
Contract: the state of a live page.

Owns:
- the components of a page, its queue of events, and the sink of its invocations;
- setting a property, attaching and discarding components;
- binding to a sink, and the end of a page.

Does not own: what happens to the events of the queue.
-/

namespace LivePage

/-- Something that happened to a component on the client. -/
structure Event where
  eventType : String
  target : String
  data : Json
  blob : Option (List UInt8)
deriving Inhabited

/-- Why an event is not handled, or a property not set. -/
inductive EventError where
  | unknownTarget (target : String)
  | missingHandler (name : String)
  | handler (reason : String)
  | pageDestroyed (page : String)
deriving DecidableEq, Repr

def destroyedText (page : String) : String :=
  "page `" ++ page ++ "` has been destroyed"

def EventError.message : EventError → String
  | .unknownTarget target => "unknown event target `" ++ target ++ "`"
  | .missingHandler name =>
      "no event handler named `" ++ name ++ "` is registered on the page"
  | .handler reason => "event handler failed: " ++ reason
  | .pageDestroyed page => destroyedText page

/-- Why a blueprint cannot be made into components. -/
inductive MaterializeError where
  | invalidValue (tag name value expected : String)
  | unknownParent (parent : String)
  | pageDestroyed (page : String)
deriving DecidableEq, Repr

def MaterializeError.message : MaterializeError → String
  | .invalidValue tag name value expected =>
      "invalid value `" ++ value ++ "` for attribute `" ++ name ++ "` of `" ++ tag ++
        "`: expected " ++ expected
  | .unknownParent parent => "unknown parent component `" ++ parent ++ "`"
  | .pageDestroyed page => destroyedText page

/-- Where the invocations of a page go. -/
inductive Sink where
  /-- One who only watches. -/
  | observer
  /-- The session of a number. -/
  | session (number : Nat)
deriving DecidableEq, Repr, Inhabited

/-- An invocation on its way to a sink. -/
structure Emission where
  sink : Sink
  invocation : Invocation
deriving Inhabited

structure PageState where
  id : String
  /-- The key of the blueprint that the page shows. -/
  src : String
  components : Dict Component
  browser : Dict Json
  isInitialized : Bool
  isDestroyed : Bool
  queue : List Event
  sink : Option Sink
  /-- The number of the next component. -/
  nextComponent : Nat
  /-- When the page was made, in seconds. -/
  createdAt : Nat
deriving Inhabited

namespace PageState

def createFunction : String := "fujion.widget.create"

def updateFunction : String := "fujion.widget.updateProperty"

/-- A page whose only component is the page itself. -/
def new (id src : String) (createdAt : Nat) : PageState where
  id := id
  src := src
  components := Dict.empty.insert id (Component.bare id "page" "Page")
  browser := .empty
  isInitialized := false
  isDestroyed := false
  queue := []
  sink := none
  nextComponent := 1
  createdAt := createdAt

def isBound (page : PageState) : Bool :=
  page.sink.isSome

def bind (page : PageState) (sink : Sink) : PageState :=
  { page with sink := some sink }

def unbind (page : PageState) : PageState :=
  { page with sink := none }

def component? (page : PageState) (id : String) : Option Component :=
  page.components.get? id

def children (page : PageState) (id : String) : List String :=
  match page.component? id with
  | some component => component.children
  | none => []

def property? (page : PageState) (id name : String) : Option Property :=
  match page.component? id with
  | some component => component.properties.get? name
  | none => none

/-- The text of the page's own `name` property. -/
def name? (page : PageState) : Option String :=
  match page.property? page.id "name" with
  | some value => value.asText
  | none => none

/-- What an invocation emits: nothing while the page is not bound. -/
def emit (page : PageState) (invocation : Invocation) : List Emission :=
  match page.sink with
  | some sink => [⟨sink, invocation⟩]
  | none => []

/-- The id of the next component. -/
def nextId (page : PageState) : String :=
  page.id ++ "_" ++ toString page.nextComponent

def drawId (page : PageState) : PageState :=
  { page with nextComponent := page.nextComponent + 1 }

def modifyComponent (page : PageState) (id : String) (change : Component → Component) :
    PageState :=
  { page with components := page.components.modify id change }

/-- Sets a property and tells the client. -/
def setProperty (page : PageState) (target name : String) (value : Property) :
    Except EventError (PageState × List Emission) :=
  if page.isDestroyed then .error (.pageDestroyed page.id)
  else
    match page.component? target with
    | none => .error (.unknownTarget target)
    | some _ =>
        .ok (page.modifyComponent target (fun component => component.setProperty name value),
          page.emit ⟨updateFunction, some target, [.str name, value.toJson]⟩)

/-- Adds a component as the last child of its parent and tells the client. -/
def attach (page : PageState) (parent : String) (component : Component) :
    Except MaterializeError (PageState × List Emission) :=
  if page.isDestroyed then .error (.pageDestroyed page.id)
  else
    match page.component? parent with
    | none => .error (.unknownParent parent)
    | some above =>
        let attached := { component with parent := some parent }
        let linked := page.components.insert parent (above.addChild component.id)
        .ok ({ page with components := linked.insert component.id attached },
          page.emit (.onClient createFunction [.str parent, attached.payload]))

/-- Removes components and all that hang below them; the second part counts
the components removed. -/
def sweep (components : Dict Component) (pending : List String) : Dict Component × Nat :=
  match pending with
  | [] => (components, 0)
  | id :: rest =>
      match _found : components.get? id with
      | none => sweep components rest
      | some component =>
          let (swept, count) := sweep (components.erase id) (component.children ++ rest)
          (swept, count + 1)
termination_by (components.size, pending.length)
decreasing_by
  · exact Prod.Lex.right _ (by simp)
  · exact Prod.Lex.left _ _ (Dict.size_erase_lt _found)

/-- Removes a component with all that hangs below it, and says how many that
were. The page's own component stays. -/
def discard (page : PageState) (id : String) : PageState × Nat :=
  if id = page.id then (page, 0)
  else
    match page.component? id with
    | none => (page, 0)
    | some component =>
        let without := page.components.erase id
        let unlinked :=
          match component.parent with
          | some parent => without.modify parent (fun above => above.removeChild id)
          | none => without
        let (swept, count) := sweep unlinked component.children
        ({ page with components := swept }, count + 1)

def queueEvent (page : PageState) (event : Event) : PageState :=
  { page with queue := page.queue ++ [event] }

def queueAll (page : PageState) (events : List Event) : PageState :=
  { page with queue := page.queue ++ events }

def clearQueue (page : PageState) : PageState :=
  { page with queue := [] }

def setBrowser (page : PageState) (browser : Dict Json) : PageState :=
  { page with browser := browser }

def markInitialized (page : PageState) : PageState :=
  { page with isInitialized := true }

/-- Ends the page: no components, no events, no sink. -/
def destroy (page : PageState) : PageState :=
  if page.isDestroyed then page
  else { page with isDestroyed := true, components := .empty, queue := [], sink := none }

end PageState

end LivePage
