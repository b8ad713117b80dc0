import LivePage.Blueprint.Instruction
import LivePage.Blueprint.Namespaces
import LivePage.Blueprint.TextRun
import LivePage.Component.Registry

/-!
Contract: reading page markup into validated page trees.

Owns:
- the reading of nodes: elements, runs of text and processing instructions;
- grafting of imported pages, down to the import limit;
- the blueprint of a page: its tree and the source it was read from.

Does not own: what a component type admits, and where sources come from.
-/

namespace LivePage

/-- The page read from a source. -/
structure Blueprint where
  tree : PageTree
  text : String
  url : Option Url
deriving Inhabited

/-- A call of an instruction handler, with the surroundings it was made in. -/
structure InstructionCall where
  target : String
  data : String
  cursor : Cursor
  treeSize : Nat
deriving DecidableEq, Repr

/-- A page under construction. -/
structure ParseState where
  tree : PageTree
  cursor : Cursor
  /-- The handler calls made so far, in their order. -/
  calls : List InstructionCall
deriving Inhabited

/-- A way to another place and back. On the return, only a part of the cursor is put back. -/
structure Detour where
  go : Cursor → Cursor
  /-- The cursor after the return to a first cursor from a second one. -/
  back : Cursor → Cursor → Cursor
  back_go (cursor : Cursor) : back cursor (go cursor) = cursor

namespace Detour

/-- Into an element, and back to the element around it. -/
def toElement (number : Nat) : Detour where
  go cursor := { cursor with parent := number }
  back outer inner := { inner with parent := outer.parent }
  back_go _ := rfl

/-- Into an imported document; on the return, its depth is counted down. -/
def toDocument (base : Option Url) : Detour where
  go cursor := { cursor with base := base, depth := cursor.depth + 1 }
  back outer inner := { inner with base := outer.base, depth := inner.depth - 1 }
  back_go _ := rfl

end Detour

/-- A part of the reading; what was done before a failure stays done. -/
abbrev ParseStep := ParseState → ParseState × Except ParseError Unit

namespace ParseStep

def done : ParseStep := fun state =>
  (state, .ok ())

def fail (error : ParseError) : ParseStep := fun state =>
  (state, .error error)

/-- Goes on with a second step unless the first one fails. -/
def andThen (first second : ParseStep) : ParseStep := fun state =>
  match first state with
  | (next, .ok ()) => second next
  | (next, .error error) => (next, .error error)

/-- Changes the tree, unless that fails. -/
def edit (change : PageTree → Except ParseError PageTree) : ParseStep := fun state =>
  match change state.tree with
  | .ok tree => ({ state with tree := tree }, .ok ())
  | .error error => (state, .error error)

def check (holds : PageTree → Except ParseError Unit) : ParseStep := fun state =>
  (state, holds state.tree)

/-- Takes a step at another place and returns, also after a failure. -/
def movedBy (detour : Detour) (step : ParseStep) : ParseStep := fun state =>
  let (next, outcome) := step { state with cursor := detour.go state.cursor }
  ({ next with cursor := detour.back state.cursor next.cursor }, outcome)

end ParseStep

/-- Everything that the reading of markup depends on besides the markup. -/
structure PageParser where
  registry : ComponentRegistry
  locator : Option Locator
  tagNamespaces : Namespaces
  attributeNamespaces : Namespaces
  instructions : Dict InstructionHandler
deriving Inhabited

namespace PageParser

open ParseStep

/-- A parser with the namespaces and instructions known from the start. -/
def new (registry : ComponentRegistry) : PageParser :=
  ⟨registry, none, Namespaces.tags, Namespaces.attributes, Instruction.builtIn⟩

def withLocator (parser : PageParser) (locator : Locator) : PageParser :=
  { parser with locator := some locator }

def registerTagNamespace (parser : PageParser) (shortName : String) : PageParser :=
  { parser with tagNamespaces := parser.tagNamespaces.register shortName }

def registerAttributeNamespace (parser : PageParser) (shortName : String) : PageParser :=
  { parser with attributeNamespaces := parser.attributeNamespaces.register shortName }

/-- Adds a handler; a target keeps the handler it has. -/
def registerInstruction (parser : PageParser) (target : String) (handler : InstructionHandler) :
    Except RegistryError PageParser :=
  if parser.instructions.contains target then .error (.duplicateInstruction target)
  else .ok { parser with instructions := parser.instructions.insert target handler }

/-- The definition of a plain tag. A tag that is unknown as a whole is a known
one up to its first dot, with the rest as an argument. -/
def lookUp (parser : PageParser) (tag : String) : Except ParseError (Definition × List Json) :=
  match parser.registry.get? tag with
  | some definition => .ok (definition, [])
  | none =>
      match Text.cutText? '.' tag with
      | some (base, qualifier) =>
          match parser.registry.get? base with
          | some definition => .ok (definition, [.str qualifier])
          | none => .error (.unknownTag tag)
      | none => .error (.unknownTag tag)

/-- The definition and the arguments of an element; nothing for one that is
dropped with all its content. -/
def elementDefinition (parser : PageParser) (name : Markup.Name) :
    Except ParseError (Option (Definition × List Json)) :=
  match parser.tagNamespaces.resolve name with
  | .unresolvable => .ok none
  | .namespaced shortName localName =>
      if shortName = Definition.htmlTag then
        match parser.registry.get? Definition.htmlTag with
        | some definition => .ok (some (definition, [.str localName]))
        | none => .error (.unknownTag (shortName ++ ":" ++ localName))
      else .error (.unknownTag (shortName ++ ":" ++ localName))
  | .plain tag => (parser.lookUp tag).map some

/-- The name under which an attribute is stored. -/
def attributeName (parser : PageParser) (definition : Definition) (name : Markup.Name) :
    Except ParseError String :=
  match parser.attributeNamespaces.resolve name with
  | .unresolvable => .error (.unresolvableAttribute name.qualified)
  | .plain localName =>
      if definition.recognizes localName then .ok localName
      else .error (.unknownAttribute definition.tag localName)
  | .namespaced shortName localName => .ok (shortName ++ ":" ++ localName)

def addElement (parent : Nat) (definition : Definition) (tree : PageTree) :
    Except ParseError PageTree :=
  match tree.addChild parent definition with
  | .ok next => .ok next
  | .error reason => .error (.child reason)

def applyAttributes (parser : PageParser) (definition : Definition) (number : Nat) :
    List Markup.Attribute → ParseStep
  | [] => done
  | written :: rest =>
      (edit (fun tree =>
        (parser.attributeName definition written.name).map (fun name =>
          tree.setAttribute number name written.value))).andThen
        (applyAttributes parser definition number rest)

/-- Adds an element with its arguments and attributes. -/
def openElement (parser : PageParser) (definition : Definition) (arguments : List Json)
    (attributes : List Markup.Attribute) : ParseStep := fun state =>
  let number := state.tree.size
  ((edit (addElement state.cursor.parent definition)).andThen
    ((edit (fun tree => .ok (arguments.foldl
      (fun tree argument => tree.pushArgument number argument) tree))).andThen
      (parser.applyAttributes definition number attributes))) state

/-- Adds text as an element of its own. -/
def addTextElement (parser : PageParser) (text : String) : ParseStep := fun state =>
  match parser.registry.get? Definition.textTag with
  | none => (state, .error (.unknownTag Definition.textTag))
  | some definition =>
      let number := state.tree.size
      ((edit (addElement state.cursor.parent definition)).andThen
        ((edit (fun tree =>
          .ok (tree.setAttribute number Definition.contentAttribute text))).andThen
          (check (fun tree => tree.validate number)))) state

/-- Takes in a run of text, as the enclosing element's definition says. -/
def processText (parser : PageParser) (run : String) : ParseStep := fun state =>
  let text := TextRun.trimmed run
  if text.isEmpty then (state, .ok ())
  else
    match (state.tree.element state.cursor.parent).definition with
    | none => (state, .error (.textNotAllowed Definition.rootTag))
    | some definition =>
        match definition.content with
        | .reject => (state, .error (.textNotAllowed definition.tag))
        | .ignore => (state, .ok ())
        | .asAttribute =>
            edit (fun tree => .ok (tree.appendAttribute state.cursor.parent
              Definition.contentAttribute text)) state
        | .asChild => parser.addTextElement text state

/-- Does what a handler asks for. -/
def runHandling (graft : PageSource → ParseStep) : Handling → ParseStep
  | .done => done
  | .fail error => fail error
  | .look next => fun state => runHandling graft (next state.tree) state
  | .put tree next => fun state => runHandling graft next { state with tree := tree }
  | .graft source next => fun state =>
      let (grafted, outcome) := graft source state
      runHandling graft (next outcome) grafted

/-- Notes a call and runs the handler of the target. -/
def processInstruction (parser : PageParser) (files : FileSystem) (graft : PageSource → ParseStep)
    (target data : String) : ParseStep := fun state =>
  match parser.instructions.get? target with
  | none => (state, .error (.unknownInstruction target))
  | some handler =>
      runHandling graft (handler ⟨files, parser.locator, state.cursor⟩ data)
        { state with calls := state.calls ++ [⟨target, data, state.cursor, state.tree.size⟩] }

/-- The text of a node that belongs to a run of text. -/
def runText? : Markup.Node → Option String
  | .text text => some text
  | .cdata text => some text
  | _ => none

mutual

/-- Takes in one node that is no text. An element is checked once its content
has been taken in. -/
def parseNode (parser : PageParser) (files : FileSystem) (graft : PageSource → ParseStep) :
    Markup.Node → ParseStep
  | .element name attributes children => fun state =>
      match parser.elementDefinition name with
      | .error error => (state, .error error)
      | .ok none => (state, .ok ())
      | .ok (some (definition, arguments)) =>
          let number := state.tree.size
          ((parser.openElement definition arguments attributes).andThen
            ((ParseStep.movedBy (.toElement number)
              (parseNodes parser files graft "" children)).andThen
              (check (fun tree => tree.validate number)))) state
  | .instruction target data => parser.processInstruction files graft target data
  | _ => done

/-- Takes in nodes one after another. Text joins the run before it; every
other node, comments included, ends the run. -/
def parseNodes (parser : PageParser) (files : FileSystem) (graft : PageSource → ParseStep)
    (run : String) : List Markup.Node → ParseStep
  | [] => parser.processText run
  | node :: rest =>
      match runText? node with
      | some text => parseNodes parser files graft (run ++ text) rest
      | none =>
          (parser.processText run).andThen
            ((parseNode parser files graft node).andThen
              (parseNodes parser files graft "" rest))

end

/-- Checks the root of a document and takes in its content. -/
def parseRoot (parser : PageParser) (files : FileSystem) (graft : PageSource → ParseStep)
    (name : Markup.Name) (attributes : List Markup.Attribute) (children : List Markup.Node) :
    ParseStep :=
  let resolved := parser.tagNamespaces.resolve name
  if resolved ≠ .plain Definition.rootTag then fail (.wrongRoot resolved.normalized)
  else
    match attributes with
    | written :: _ => fail (.unknownAttribute Definition.rootTag written.name.qualified)
    | [] => parser.parseNodes files graft "" children

/-- Takes in a node at top level. -/
def parseTopLevel (parser : PageParser) (files : FileSystem) (graft : PageSource → ParseStep)
    (node : Markup.Node) : ParseStep :=
  match node with
  | .element name attributes children => parser.parseRoot files graft name attributes children
  | .instruction target data => parser.processInstruction files graft target data
  | .comment _ => done
  | .doctype _ => done
  | .text text => if Text.allBlank text then done else fail (.misplacedNode node.kind)
  | .cdata text => if Text.allBlank text then done else fail (.misplacedNode node.kind)

def parseDocument (parser : PageParser) (files : FileSystem) (graft : PageSource → ParseStep)
    (document : Markup.Document) : ParseStep :=
  document.nodes.foldr (fun node rest => (parser.parseTopLevel files graft node).andThen rest) done

/-- Grafts another page at the present place, with so many further imports
left below the limit. -/
def graft (parser : PageParser) (files : FileSystem) : Nat → PageSource → ParseStep
  | 0, _ => fail .importsTooDeep
  | remaining + 1, source =>
      match source.document with
      | .error reason => fail (.source reason)
      | .ok document =>
          ParseStep.movedBy (.toDocument source.url)
            (parser.parseDocument files (graft parser files remaining) document)

/-- A page before anything was read, at a location. -/
def start (base : Option Url) : ParseState :=
  ⟨.empty, ⟨PageTree.root, base, 0⟩, []⟩

/-- Reads a source, and keeps what was read before a failure. -/
def run (parser : PageParser) (files : FileSystem) (source : PageSource) :
    ParseState × Except ParseError Unit :=
  match source.document with
  | .error reason => (start source.url, .error (.source reason))
  | .ok document =>
      parser.parseDocument files (parser.graft files importLimit) document (start source.url)

/-- The blueprint of the page at a source. -/
def parse (parser : PageParser) (files : FileSystem) (source : PageSource) :
    Except ParseError Blueprint :=
  match parser.run files source with
  | (state, .ok ()) => .ok ⟨state.tree, source.text, source.url⟩
  | (_, .error error) => .error error

/-- The source that a key names; a parser without a locator knows no keys. -/
def sourceOfKey (parser : PageParser) (files : FileSystem) (key : String) :
    Except ParseError PageSource :=
  match parser.locator with
  | none => .error (.source (.notFound key))
  | some locator =>
      match PageSource.ofKey files locator key with
      | .ok source => .ok source
      | .error reason => .error (.source reason)

/-- The blueprint of the page that a key names. -/
def parseKey (parser : PageParser) (files : FileSystem) (key : String) :
    Except ParseError Blueprint :=
  match parser.sourceOfKey files key with
  | .ok source => parser.parse files source
  | .error error => .error error

end PageParser

end LivePage
