import LivePage.Component.Definition

/-!
Contract: the component definitions known by tag.

Owns:
- the registry and registration, which never replaces a definition;
- the core components.

Does not own: names with a namespace.
-/

namespace LivePage

/-- Why something cannot be registered. -/
inductive RegistryError where
  | duplicateTag (tag : String)
  | duplicateInstruction (target : String)
deriving DecidableEq, Repr

def RegistryError.message : RegistryError → String
  | .duplicateTag tag =>
      "a component definition for tag `" ++ tag ++ "` is already registered"
  | .duplicateInstruction target =>
      "a handler for processing instruction `" ++ target ++ "` is already registered"

/-- Definitions by tag. -/
structure ComponentRegistry where
  definitions : Dict Definition
deriving Inhabited

namespace ComponentRegistry

def empty : ComponentRegistry := ⟨.empty⟩

def get? (registry : ComponentRegistry) (tag : String) : Option Definition :=
  registry.definitions.get? tag

def contains (registry : ComponentRegistry) (tag : String) : Bool :=
  registry.definitions.contains tag

def register (registry : ComponentRegistry) (definition : Definition) :
    Except RegistryError ComponentRegistry :=
  if registry.contains definition.tag then .error (.duplicateTag definition.tag)
  else .ok ⟨registry.definitions.insert definition.tag definition⟩

/-- The tags in ascending order. -/
def tags (registry : ComponentRegistry) : List String :=
  registry.definitions.keys

def size (registry : ComponentRegistry) : Nat :=
  registry.definitions.size

def flavors : List String :=
  ["default", "primary", "success", "info", "warning", "danger", "link"]

open Definition in
def coreDefinitions : List Definition := [
  (((basic pageTag "Page").withContent .ignore).withAttribute "title" .text
    |>.withAnyChild .unbounded).withParents [rootTag],
  ((basic "div" "Div").withContent .asChild).withAnyChild .unbounded,
  ((basic "span" "Span").withContent .asChild).withAnyChild .unbounded,
  ((basic "label" "Label").withContent .asAttribute).withAttribute "label" .text
    |>.withAttribute "value" .text,
  ((basic "button" "Button").withContent .asAttribute).withAttribute "label" .text
    |>.withAttribute "disabled" .boolean
    |>.withAttribute "flavor" (.choice flavors),
  (basic "textbox" "Textbox").withAttribute "value" .text
    |>.withAttribute "placeholder" .text
    |>.withAttribute "maxlength" .integer
    |>.withAttribute "readonly" .boolean
    |>.withAttribute "disabled" .boolean,
  (basic "checkbox" "Checkbox").withAttribute "label" .text
    |>.withAttribute "checked" .boolean
    |>.withAttribute "disabled" .boolean,
  (((basic htmlTag "Html").withContent .asChild).withOpenAttributes).withAnyChild .unbounded,
  (basic textTag "Content").withAttribute contentAttribute .text]

/-- The registry of the core components. -/
def core : ComponentRegistry :=
  ⟨Dict.ofList (coreDefinitions.map (fun definition => (definition.tag, definition)))⟩

end ComponentRegistry

end LivePage
