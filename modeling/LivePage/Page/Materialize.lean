import LivePage.Blueprint.Parser
import LivePage.Page.State

/-!
Contract: making the components of a blueprint.

Owns:
- what the attributes of an element say about its component;
- building the components below a parent, and taking all of them back after a failure.

Does not own: how the client shows components.
-/

namespace LivePage

/-- What an attribute of an element sets. -/
inductive Setting where
  | event (eventType : String)
  | domAttribute (name : String)
  | controller (name : String)
  | property (name : String)
deriving DecidableEq, Repr

/-- The first part of a name up to a colon decides what it sets. -/
def Setting.ofName (name : String) : Setting :=
  match Text.cutText? ':' name with
  | some ("on", eventType) => .event eventType
  | some ("attr", attributeName) => .domAttribute attributeName
  | some ("controller", controllerName) => .controller controllerName
  | _ => .property name

/-- The typed value of an attribute; text where the definition does not say. -/
def Definition.coerce (definition : Definition) (name value : String) :
    Except MaterializeError Property :=
  let kind := (definition.attributeKind? name).getD .text
  match kind.coerce? value with
  | some property => .ok property
  | none => .error (.invalidValue definition.tag name value kind.expected)

/-- Applies one attribute to a component. -/
def Component.apply (component : Component) (definition : Definition) (name value : String) :
    Except MaterializeError Component :=
  match Setting.ofName name with
  | .event eventType => .ok (component.bindEvent eventType value)
  | .domAttribute attributeName => .ok (component.setDomAttribute attributeName value)
  | .controller controllerName => .ok (component.setController controllerName value)
  | .property propertyName =>
      (definition.coerce propertyName value).map (component.setProperty propertyName)

def Component.applyAll (component : Component) (definition : Definition) :
    List (String × String) → Except MaterializeError Component
  | [] => .ok component
  | (name, value) :: rest =>
      match component.apply definition name value with
      | .ok next => next.applyAll definition rest
      | .error error => .error error

/-- A page while components are being made, with what was emitted so far. -/
structure Building where
  page : PageState
  emitted : List Emission
deriving Inhabited

/-- A part of the making; what was done before a failure stays done. -/
abbrev BuildStep (α : Type) := Building → Building × Except MaterializeError α

namespace Building

/-- Takes over an operation on the page. -/
def take (building : Building) (result : Except MaterializeError (PageState × List Emission)) :
    Building × Except MaterializeError Unit :=
  match result with
  | .ok (page, emitted) => (⟨page, building.emitted ++ emitted⟩, .ok ())
  | .error error => (building, .error error)

/-- Takes the same step for each number, until one fails. -/
def forEach (step : Nat → BuildStep String) : List Nat → BuildStep (List String)
  | [] => fun building => (building, .ok [])
  | number :: rest => fun building =>
      match step number building with
      | (next, .error error) => (next, .error error)
      | (next, .ok id) =>
          match forEach step rest next with
          | (last, .error error) => (last, .error error)
          | (last, .ok ids) => (last, .ok (id :: ids))

/-- The component of an element, before it has a place. -/
def componentOf (definition : Definition) (element : Element) (id : String) :
    Except MaterializeError Component :=
  let start := Component.bare id definition.tag definition.widgetClass
  { start with arguments := element.arguments }.applyAll definition element.attributes.toList

/-- Makes the component of an element and those of its content. The fuel
bounds the depth of the tree. -/
def build (tree : PageTree) : Nat → String → Nat → BuildStep String
  | 0, parent, _ => fun building => (building, .error (.unknownParent parent))
  | fuel + 1, parent, number => fun building =>
      let element := tree.element number
      match element.definition with
      | none => (building, .error (.unknownParent parent))
      | some definition =>
          let id := building.page.nextId
          let drawn := { building with page := building.page.drawId }
          match componentOf definition element id with
          | .error error => (drawn, .error error)
          | .ok component =>
              match drawn.take (drawn.page.attach parent component) with
              | (next, .error error) => (next, .error error)
              | (next, .ok ()) =>
                  match forEach (build tree fuel id) element.children next with
                  | (last, .error error) => (last, .error error)
                  | (last, .ok _) => (last, .ok id)

/-- Applies one attribute to the page's own component; a property is also
told to the client. -/
def applyToPage (definition : Definition) (name value : String) : BuildStep Unit :=
  fun building =>
    let page := building.page
    match Setting.ofName name with
    | .property propertyName =>
        match definition.coerce propertyName value with
        | .error error => (building, .error error)
        | .ok property =>
            building.take
              (match page.setProperty page.id propertyName property with
              | .ok result => .ok result
              | .error _ => .error (.pageDestroyed page.id))
    | _ =>
        match page.component? page.id with
        | none => (building, .error (.pageDestroyed page.id))
        | some component =>
            match component.apply definition name value with
            | .error error => (building, .error error)
            | .ok changed =>
                ({ building with page :=
                    { page with components := page.components.insert page.id changed } }, .ok ())

def applyAllToPage (definition : Definition) : List (String × String) → BuildStep Unit
  | [] => fun building => (building, .ok ())
  | (name, value) :: rest => fun building =>
      match applyToPage definition name value building with
      | (next, .error error) => (next, .error error)
      | (next, .ok ()) => applyAllToPage definition rest next

/-- Makes the components of a top-level element. A `page` element under the
page itself sets up the page, and its content takes its place. -/
def buildTopLevel (tree : PageTree) (parent : String) (number : Nat) :
    BuildStep (List String) := fun building =>
  let element := tree.element number
  if parent = building.page.id ∧ element.tag = Definition.pageTag then
    let applied : Building × Except MaterializeError Unit :=
      match element.definition with
      | none => (building, .ok ())
      | some definition => applyAllToPage definition element.attributes.toList building
    match applied with
    | (next, .error error) => (next, .error error)
    | (next, .ok ()) => forEach (build tree tree.size parent) element.children next
  else forEach (build tree tree.size parent) [number] building

def buildAll (tree : PageTree) (parent : String) : List Nat → BuildStep (List String)
  | [] => fun building => (building, .ok [])
  | number :: rest => fun building =>
      match buildTopLevel tree parent number building with
      | (next, .error error) => (next, .error error)
      | (next, .ok ids) =>
          match buildAll tree parent rest next with
          | (last, .error error) => (last, .error error)
          | (last, .ok more) => (last, .ok (ids ++ more))

end Building

namespace PageState

/-- Discards the children of a component except those listed. -/
def discardOthers (page : PageState) (parent : String) (kept : List String) : PageState :=
  ((page.children parent).filter (fun child => !kept.contains child)).foldl
    (fun page child => (page.discard child).1) page

/-- Makes the components of a tree below a parent, which is the page itself
unless given. The result names the top-level components. After a failure none
of the new components stays. -/
def materialize (page : PageState) (tree : PageTree) (parent : Option String) :
    Building × Except MaterializeError (List String) :=
  let parent := parent.getD page.id
  let existing := page.children parent
  match Building.buildAll tree parent (tree.element PageTree.root).children ⟨page, []⟩ with
  | (building, .ok ids) => (building, .ok ids)
  | (building, .error error) =>
      ({ building with page := building.page.discardOthers parent existing }, .error error)

end PageState

end LivePage
