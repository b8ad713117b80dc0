import LivePage.Component.Cardinality
import LivePage.Component.Property

/-!
Contract: what markup may say about a component type.

Owns:
- component definitions: attributes, children, parents and the treatment of
  text content;
- the check of one child, and of the children as a whole.

Does not own: the set of known definitions.
-/

namespace LivePage

/-- What happens to text directly inside an element. -/
inductive ContentHandling where
  | reject
  | ignore
  | asAttribute
  | asChild
deriving DecidableEq, Repr, Inhabited

/-- Why a child cannot be added to its parent. -/
inductive ChildError where
  | notAdmitted (parent child : String)
  | tooMany (parent child : String) (max : Nat)
deriving DecidableEq, Repr

def ChildError.message : ChildError → String
  | .notAdmitted parent child => "`" ++ child ++ "` is not a valid child for `" ++ parent ++ "`"
  | .tooMany parent child max =>
      "`" ++ parent ++ "` allows at most " ++ toString max ++ " `" ++ child ++ "` children"

/-- The markup-facing description of a component type. -/
structure Definition where
  tag : String
  widgetClass : String
  content : ContentHandling
  attributes : Dict AttributeKind
  /-- Every plain attribute is accepted, as text. -/
  openAttributes : Bool
  children : Dict Cardinality
  /-- The range of child tags without one of their own. -/
  anyChild : Option Cardinality
  /-- The only tags that the component may stand in, if they are limited. -/
  parents : Option (List String)
deriving DecidableEq, Repr, Inhabited

namespace Definition

/-- The tag of the child that carries text content. -/
def textTag : String := "#text"

/-- The tag of the root of a page's elements. -/
def rootTag : String := "fsp"

/-- The tag of the element that configures the page itself. -/
def pageTag : String := "page"

/-- The tag whose components pass an HTML tag through. -/
def htmlTag : String := "html"

/-- The attribute under which text content is stored. -/
def contentAttribute : String := "content"

/-- The attributes that every component recognizes. -/
def baseAttributes : List (String × AttributeKind) := [
  ("name", .text), ("class", .text), ("style", .text), ("hint", .text),
  ("visible", .boolean), ("flex", .text)]

/-- A component with the base attributes, without children and content. -/
def basic (tag widgetClass : String) : Definition where
  tag := tag
  widgetClass := widgetClass
  content := .reject
  attributes := Dict.ofList baseAttributes
  openAttributes := false
  children := .empty
  anyChild := none
  parents := none

def withContent (definition : Definition) (content : ContentHandling) : Definition :=
  { definition with content := content }

def withAttribute (definition : Definition) (name : String) (kind : AttributeKind) : Definition :=
  { definition with attributes := definition.attributes.insert name kind }

def withOpenAttributes (definition : Definition) : Definition :=
  { definition with openAttributes := true }

def withChild (definition : Definition) (tag : String) (cardinality : Cardinality) : Definition :=
  { definition with children := definition.children.insert tag cardinality }

def withAnyChild (definition : Definition) (cardinality : Cardinality) : Definition :=
  { definition with anyChild := some cardinality }

def withParents (definition : Definition) (parents : List String) : Definition :=
  { definition with parents := some parents }

/-- The kind of a plain attribute, if the component recognizes it. -/
def attributeKind? (definition : Definition) (name : String) : Option AttributeKind :=
  match definition.attributes.get? name with
  | some kind => some kind
  | none =>
      if name = contentAttribute ∧ definition.content = .asAttribute then some .text
      else if definition.openAttributes then some .text
      else none

def recognizes (definition : Definition) (name : String) : Bool :=
  (definition.attributeKind? name).isSome

/-- The range that applies to a child tag: its own, else that of any child. -/
def cardinalityFor (definition : Definition) (childTag : String) : Option Cardinality :=
  (definition.children.get? childTag).or definition.anyChild

def allowsParent (definition : Definition) (parentTag : String) : Bool :=
  match definition.parents with
  | some parents => parents.contains parentTag
  | none => true

/-- Checks a child that would be the `count`-th of its tag. -/
def accept (parent child : Definition) (count : Nat) : Except ChildError Unit :=
  match parent.cardinalityFor child.tag with
  | none => .error (.notAdmitted parent.tag child.tag)
  | some cardinality =>
      if !child.allowsParent parent.tag then .error (.notAdmitted parent.tag child.tag)
      else
        match cardinality.max with
        | some max => if count > max then .error (.tooMany parent.tag child.tag max) else .ok ()
        | none => .ok ()

/-- The violation of one observed count, if it lies outside the range that applies. -/
def violation? (definition : Definition) (tag : String) (count : Nat) :
    Option CardinalityViolation :=
  match definition.cardinalityFor tag with
  | some cardinality =>
      if cardinality.contains count then none else some ⟨tag, cardinality, count⟩
  | none => none

/-- The violations of the observed counts, in tag order, and after them the
required tags that were not observed. -/
def violations (definition : Definition) (counts : Dict Nat) : List CardinalityViolation :=
  counts.toList.filterMap (fun observed => definition.violation? observed.1 observed.2) ++
    definition.children.toList.filterMap (fun declared =>
      if declared.2.isRequired && !counts.contains declared.1 then
        some ⟨declared.1, declared.2, 0⟩
      else none)

end Definition

end LivePage
