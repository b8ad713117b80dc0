import LivePage.Markup.Event
import LivePage.Text.Blank

/-!
Contract: documents.

Owns:
- the tree of nodes;
- the tree that a stream of events describes, and when it describes none;
- the events of a tree, in document order.

Does not own: what pages make of a document.
-/

namespace LivePage.Markup

inductive Node where
  | element (name : Name) (attributes : List Attribute) (children : List Node)
  | text (text : String)
  | cdata (text : String)
  | comment (text : String)
  | instruction (target data : String)
  | doctype (text : String)
deriving Inhabited

/-- The name of a node's kind. -/
def Node.kind : Node → String
  | .element .. => "element"
  | .text _ => "text"
  | .cdata _ => "cdata"
  | .comment _ => "comment"
  | .instruction .. => "processing instruction"
  | .doctype _ => "doctype"

/-- The nodes at top level, of which exactly one is an element. -/
structure Document where
  nodes : List Node
deriving Inhabited

/-- An element that is still open, with the children read so far in reverse. -/
structure OpenElement where
  name : Name
  attributes : List Attribute
  children : List Node

/-- A tree under construction: open elements, the innermost first, and the
top-level nodes in reverse. -/
structure Construction where
  openElements : List OpenElement
  topLevel : List Node
  hasRoot : Bool

namespace Construction

def empty : Construction :=
  ⟨[], [], false⟩

/-- Adds a node at top level, where one element and blank text may stand;
the blank text is dropped. -/
def addTopLevel (construction : Construction) (node : Node) : Except Cause Construction :=
  match node with
  | .element .. =>
      if construction.hasRoot then .error .multipleRoots
      else .ok { construction with topLevel := node :: construction.topLevel, hasRoot := true }
  | .text text =>
      if Text.allBlank text then .ok construction else .error .textOutsideRoot
  | _ => .ok { construction with topLevel := node :: construction.topLevel }

/-- Adds a finished node where the text stands. -/
def add (construction : Construction) (node : Node) : Except Cause Construction :=
  match construction.openElements with
  | innermost :: outer =>
      .ok { construction with
        openElements := { innermost with children := node :: innermost.children } :: outer }
  | [] => construction.addTopLevel node

/-- The target of an instruction and its data, without the space around them. -/
def splitInstruction (content : String) : Node :=
  let trimmed := Text.trim content.toList
  match Text.cutAt? Text.isBlank trimmed with
  | some (target, data) =>
      .instruction (String.ofList target) (String.ofList (Text.trim data))
  | none => .instruction (String.ofList trimmed) ""

/-- Takes one event in. -/
def take (construction : Construction) (kind : EventKind) : Except Cause Construction :=
  match kind with
  | .enter name attributes =>
      .ok { construction with
        openElements := ⟨name, attributes, []⟩ :: construction.openElements }
  | .leaf name attributes => construction.add (.element name attributes [])
  | .leave =>
      match construction.openElements with
      | [] => .error .unexpectedClosingTag
      | finished :: outer =>
          { construction with openElements := outer }.add
            (.element finished.name finished.attributes finished.children.reverse)
  | .text text => construction.add (.text text)
  | .cdata text => construction.add (.cdata text)
  | .comment text => construction.add (.comment text)
  | .instruction content => construction.add (splitInstruction content)
  | .declaration => .ok construction
  | .doctype text => construction.add (.doctype text)

/-- Takes events in, one after another. -/
def takeAll (construction : Construction) : List Event → Except Malformed Construction
  | [] => .ok construction
  | event :: rest =>
      match construction.take event.kind with
      | .error cause => .error ⟨event.position, cause⟩
      | .ok next => takeAll next rest

/-- The document, when no element is open and a root was found. -/
def finish (construction : Construction) : Except Cause Document :=
  match construction.openElements with
  | unclosed :: _ => .error (.unclosedElement unclosed.name.qualified)
  | [] =>
      if construction.hasRoot then .ok ⟨construction.topLevel.reverse⟩ else .error .noRoot

end Construction

namespace Document

/-- The document that a stream of events describes. -/
def ofStream (stream : EventStream) : Except Malformed Document :=
  match Construction.empty.takeAll stream.events with
  | .error malformed => .error malformed
  | .ok construction =>
      match stream.fault with
      | some malformed => .error malformed
      | none =>
          match construction.finish with
          | .error cause => .error ⟨stream.stop, cause⟩
          | .ok document => .ok document

def parse (text : String) : Except Malformed Document :=
  ofStream (EventStream.ofText text)

/-- The root element, given by its name, attributes and children. -/
def root? (document : Document) : Option (Name × List Attribute × List Node) :=
  document.nodes.findSome? (fun node =>
    match node with
    | .element name attributes children => some (name, attributes, children)
    | _ => none)

end Document

mutual

/-- The nodes of a tree in document order, each with its depth. -/
def Node.listed (depth : Nat) : Node → List (Nat × Node)
  | .element name attributes children =>
      (depth, .element name attributes children) :: Node.listedAll (depth + 1) children
  | node => [(depth, node)]

def Node.listedAll (depth : Nat) : List Node → List (Nat × Node)
  | [] => []
  | node :: rest => Node.listed depth node ++ Node.listedAll depth rest

end

end LivePage.Markup
