import LivePage.Console.Failure

/-!
Contract: the parts of a server as the console shows them.

Owns:
- the JSON forms of values, definitions, markup, page trees, components and pages.

Does not own: any rule about these parts.
-/

namespace LivePage.Console

open Json (nat nats optionalText optionalHex optionalNat ofFields)

def property (value : Property) : Json :=
  ofFields [("kind", .str value.kindName), ("json", .str value.toJson.render),
    ("display", .str value.display)]

/-- What a kind makes of raw text, or what it expected. -/
def coerced (kind : AttributeKind) (raw : String) : Json :=
  match kind.coerce? raw with
  | some value => property value
  | none => ofFields [("expected", .str kind.expected)]

def contentWord : ContentHandling → String
  | .reject => "reject"
  | .ignore => "ignore"
  | .asAttribute => "attribute"
  | .asChild => "child"

def definitionFields (definition : Definition) : List (String × Json) :=
  [("tag", .str definition.tag), ("widget", .str definition.widgetClass),
    ("content", .str (contentWord definition.content))]

def violation (found : CardinalityViolation) : Json :=
  ofFields [("tag", .str found.tag), ("count", nat found.count), ("text", .str found.message)]

/-- A name of the markup with what its qualifier is bound to. -/
def name (name : Markup.Name) : Json :=
  ofFields [
    ("prefix", optionalText name.qualifier),
    ("local", .str name.localName),
    ("binding",
      match name.binding with
      | .unbound => .null
      | .undeclared => .str "undeclared"
      | .uri uri => ofFields [("uri", .str uri)])]

/-- A node with its depth, without its content. -/
def node (depth : Nat) (node : Markup.Node) : Json :=
  ofFields ([("depth", nat depth), ("kind", .str node.kind)] ++
    match node with
    | .element elementName attributes _ => [
        ("name", name elementName),
        ("attributes", .arr (attributes.map (fun written =>
          ofFields [("name", name written.name), ("value", .str written.value)])))]
    | .text text => [("text", .str text)]
    | .cdata text => [("text", .str text)]
    | .comment text => [("text", .str text)]
    | .doctype text => [("text", .str text)]
    | .instruction target data => [("target", .str target), ("data", .str data)])

def element (tree : PageTree) (number : Nat) : Json :=
  let shown := tree.element number
  let childTags := shown.children.map (fun child => (tree.element child).tag)
  ofFields [
    ("id", nat number),
    ("tag", .str shown.tag),
    ("parent", optionalNat shown.parent),
    ("children", nats shown.children),
    ("counts", ofFields (childTags.map (fun tag => (tag, nat (shown.childCount tag))))),
    ("attributes", Json.ofDict .str shown.attributes),
    ("args", .arr shown.arguments),
    ("taglibs", Json.ofDict (fun library =>
      .arr [.str library.libraryPrefix, .str library.uri]) shown.tagLibraries)]

/-- All elements of a tree in document order. -/
def tree (shown : PageTree) : Json :=
  .arr ((shown.descendants PageTree.root).map (element shown))

/-- A call of an instruction handler. -/
def instructionCall (call : InstructionCall) : Json :=
  .arr [.str "pi", .str call.target, .str call.data, nat call.cursor.parent, nat call.treeSize,
    nat call.cursor.depth, optionalText (call.cursor.base.map Url.text)]

def component (shown : Component) : Json :=
  ofFields [
    ("id", .str shown.id),
    ("tag", .str shown.tag),
    ("widget", .str shown.widgetClass),
    ("parent", optionalText shown.parent),
    ("children", Json.strings shown.children),
    ("properties", Json.ofDict property shown.properties),
    ("args", .arr shown.arguments),
    ("payload", .str shown.payload.render)]

/-- A component and all below it, each in front of its children. The fuel
bounds the depth. -/
def componentsBelow (page : PageState) : Nat → String → List Json
  | 0, _ => []
  | fuel + 1, id =>
      match page.component? id with
      | none => []
      | some shown => component shown :: shown.children.flatMap (componentsBelow page fuel)

def page (shown : PageState) : Json :=
  ofFields [
    ("id", .str shown.id),
    ("src", .str shown.src),
    ("name", optionalText shown.name?),
    ("bound", .bool shown.isBound),
    ("initialized", .bool shown.isInitialized),
    ("destroyed", .bool shown.isDestroyed),
    ("pending", nat shown.queue.length),
    ("count", nat shown.components.size),
    ("browser", Json.ofDict id shown.browser),
    ("components", .arr (componentsBelow shown shown.components.size shown.id))]

def invocation (shown : Invocation) : Json :=
  ofFields [("function", .str shown.function), ("target", optionalText shown.target),
    ("arguments", .str (Json.arr shown.arguments).render)]

/-- An event as a handler's record shows it. -/
def eventRecord (event : Event) (remark : Json) : Json :=
  .arr [.str "event", .str event.eventType, .str event.target, event.data,
    optionalHex event.blob, remark]

end LivePage.Console
