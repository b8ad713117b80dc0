import LivePage.Component.Property
import LivePage.Dict
import LivePage.Json.Access

/-!
Contract: the components of a live page.

Owns:
- the state of one component and the object that announces it to the client.

Does not own: where a component stands in its page.
-/

namespace LivePage

structure Component where
  id : String
  tag : String
  widgetClass : String
  parent : Option String
  children : List String
  properties : Dict Property
  /-- The names of the handlers bound to event types. -/
  events : Dict String
  domAttributes : Dict String
  controllers : Dict String
  arguments : List Json
deriving Inhabited

namespace Component

/-- A component without parent, children and settings. -/
def bare (id tag widgetClass : String) : Component :=
  ⟨id, tag, widgetClass, none, [], .empty, .empty, .empty, .empty, []⟩

def setProperty (component : Component) (name : String) (value : Property) : Component :=
  { component with properties := component.properties.insert name value }

def bindEvent (component : Component) (eventType handler : String) : Component :=
  { component with events := component.events.insert eventType handler }

def setDomAttribute (component : Component) (name value : String) : Component :=
  { component with domAttributes := component.domAttributes.insert name value }

def setController (component : Component) (name value : String) : Component :=
  { component with controllers := component.controllers.insert name value }

def addChild (component : Component) (child : String) : Component :=
  { component with children := component.children ++ [child] }

def removeChild (component : Component) (child : String) : Component :=
  { component with children := component.children.filter (· ≠ child) }

/-- What the client is told about a new component. Arguments appear only if
there are any. -/
def payload (component : Component) : Json :=
  Json.ofFields ([
    ("id", .str component.id),
    ("wclazz", .str component.widgetClass),
    ("props", Json.ofDict Property.toJson component.properties),
    ("events", Json.ofDict (fun _ => .bool true) component.events),
    ("attrs", Json.ofDict .str component.domAttributes)] ++
    (if component.arguments.isEmpty then [] else [("cargs", .arr component.arguments)]))

end Component

end LivePage
