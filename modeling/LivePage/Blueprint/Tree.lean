import LivePage.Blueprint.ParseError

/-!
Contract: the elements of a parsed page.

Owns:
- elements and the tree that holds them by number, the root being number zero;
- adding a child, which its parent has to accept at its running count;
- attributes, arguments and tag libraries of elements;
- the check of an element's children, document order and the search for a tag library.

Does not own: the markup that elements come from.
-/

namespace LivePage

structure TagLibrary where
  libraryPrefix : String
  uri : String
deriving DecidableEq, Repr, Inhabited

structure Element where
  /-- Absent only for the root. -/
  definition : Option Definition
  parent : Option Nat
  children : List Nat
  childCounts : Dict Nat
  attributes : Dict String
  arguments : List Json
  tagLibraries : Dict TagLibrary
deriving Inhabited

namespace Element

/-- An element without children, attributes, arguments and tag libraries. -/
def bare (definition : Option Definition) (parent : Option Nat) : Element :=
  ⟨definition, parent, [], .empty, .empty, [], .empty⟩

def tag (element : Element) : String :=
  match element.definition with
  | some definition => definition.tag
  | none => Definition.rootTag

def childCount (element : Element) (tag : String) : Nat :=
  (element.childCounts.get? tag).getD 0

/-- Whether an element takes one more child. The root takes every child that
may stand in it. -/
def accept (element : Element) (child : Definition) : Except ChildError Unit :=
  match element.definition with
  | some definition => definition.accept child (element.childCount child.tag + 1)
  | none =>
      if child.allowsParent Definition.rootTag then .ok ()
      else .error (.notAdmitted Definition.rootTag child.tag)

/-- Links and counts one more child. -/
def withChild (element : Element) (number : Nat) (tag : String) : Element :=
  { element with
    children := element.children ++ [number]
    childCounts := element.childCounts.insert tag (element.childCount tag + 1) }

/-- The violations among the children of an element; the root has none. -/
def violations (element : Element) : List CardinalityViolation :=
  match element.definition with
  | some definition => definition.violations element.childCounts
  | none => []

end Element

/-- The elements of a page by number. -/
structure PageTree where
  elements : Array Element
deriving Inhabited

namespace PageTree

def root : Nat := 0

/-- A tree of the root alone. -/
def empty : PageTree := ⟨#[Element.bare none none]⟩

def size (tree : PageTree) : Nat :=
  tree.elements.size

/-- Whether there is no element besides the root. -/
def isEmpty (tree : PageTree) : Bool :=
  tree.size ≤ 1

def element? (tree : PageTree) (number : Nat) : Option Element :=
  tree.elements[number]?

/-- The element of a number; a bare root where there is none. -/
def element (tree : PageTree) (number : Nat) : Element :=
  (tree.element? number).getD (Element.bare none none)

def modify (tree : PageTree) (number : Nat) (change : Element → Element) : PageTree :=
  ⟨tree.elements.modify number change⟩

/-- Adds a last child, if its parent admits it. Its number is the size before. -/
def addChild (tree : PageTree) (parent : Nat) (child : Definition) :
    Except ChildError PageTree :=
  match (tree.element parent).accept child with
  | .error error => .error error
  | .ok () =>
      .ok (PageTree.modify ⟨tree.elements.push (Element.bare (some child) (some parent))⟩ parent
        (fun element => element.withChild tree.size child.tag))

def setAttribute (tree : PageTree) (number : Nat) (name value : String) : PageTree :=
  tree.modify number (fun element =>
    { element with attributes := element.attributes.insert name value })

def appendAttribute (tree : PageTree) (number : Nat) (name value : String) : PageTree :=
  tree.modify number (fun element =>
    { element with attributes :=
        element.attributes.insert name ((element.attributes.get? name).getD "" ++ value) })

def pushArgument (tree : PageTree) (number : Nat) (argument : Json) : PageTree :=
  tree.modify number (fun element =>
    { element with arguments := element.arguments ++ [argument] })

def addTagLibrary (tree : PageTree) (number : Nat) (library : TagLibrary) : PageTree :=
  tree.modify number (fun element =>
    { element with tagLibraries :=
        element.tagLibraries.insert library.libraryPrefix library })

/-- Checks the children of an element as a whole. -/
def validate (tree : PageTree) (number : Nat) : Except ParseError Unit :=
  let element := tree.element number
  match element.violations with
  | [] => .ok ()
  | violations => .error (.cardinality element.tag violations)

/-- Takes elements off a stack, each in front of its children. The fuel bounds
the number of elements taken. -/
def unstack (tree : PageTree) : Nat → List Nat → List Nat
  | 0, _ => []
  | _ + 1, [] => []
  | fuel + 1, number :: rest =>
      number :: unstack tree fuel ((tree.element number).children ++ rest)

/-- An element and all below it in document order. -/
def descendants (tree : PageTree) (number : Nat) : List Nat :=
  tree.unstack tree.size [number]

/-- Climbs from an element to the nearest one that has a library of the prefix. -/
def climbForLibrary (tree : PageTree) (libraryPrefix : String) : Nat → Nat → Option TagLibrary
  | 0, _ => none
  | fuel + 1, number =>
      let element := tree.element number
      match element.tagLibraries.get? libraryPrefix with
      | some library => some library
      | none =>
          match element.parent with
          | some parent => climbForLibrary tree libraryPrefix fuel parent
          | none => none

/-- The tag library of a prefix that holds at an element. -/
def tagLibrary? (tree : PageTree) (number : Nat) (libraryPrefix : String) : Option TagLibrary :=
  tree.climbForLibrary libraryPrefix tree.size number

end PageTree

end LivePage
