import LivePage.Blueprint.PseudoAttribute
import LivePage.Blueprint.Tree

/-!
Contract: what processing instructions do to a page under construction.

Owns:
- handlers as programs that look at the tree, change it, and graft other pages;
- the instructions known from the start: imports and tag libraries.

Does not own: running a program, and the place it runs at.
-/

namespace LivePage

/-- Where the markup that is being read puts its next element. -/
structure Cursor where
  /-- The number of the element that encloses the spot. -/
  parent : Nat
  /-- The location of the document that holds the spot. -/
  base : Option Url
  /-- How many imports enclose the spot. -/
  depth : Nat
deriving DecidableEq, Repr, Inhabited

/-- What a handler goes on to do. Another page comes in only by a graft at the
place of the instruction. -/
inductive Handling where
  | done
  | fail (error : ParseError)
  | look (next : PageTree → Handling)
  | put (tree : PageTree) (next : Handling)
  | graft (source : PageSource) (next : Except ParseError Unit → Handling)

namespace Handling

/-- Grafts a page and takes its outcome over. -/
def graftOnly (source : PageSource) : Handling :=
  .graft source (fun outcome =>
    match outcome with
    | .ok () => .done
    | .error error => .fail error)

/-- Changes the tree once. -/
def change (edit : PageTree → PageTree) : Handling :=
  .look (fun tree => .put (edit tree) .done)

def ofExcept : Except ParseError Handling → Handling
  | .ok handling => handling
  | .error error => .fail error

end Handling

/-- What a handler knows of the instruction's surroundings. -/
structure InstructionSite where
  files : FileSystem
  locator : Option Locator
  cursor : Cursor

/-- A handler turns the data of an instruction into what is to be done. -/
abbrev InstructionHandler := InstructionSite → String → Handling

namespace Instruction

def importTarget : String := "import"

def taglibTarget : String := "taglib"

def readData (target data : String) : Except ParseError (Dict String) :=
  match PseudoAttribute.read data with
  | .ok values => .ok values
  | .error fault => .error (.invalidInstruction target fault.message)

def required (target name : String) (values : Dict String) : Except ParseError String :=
  match values.get? name with
  | some value => .ok value
  | none => .error (.invalidInstruction target ("missing `" ++ name ++ "`"))

/-- The URL of an import reference: by the locator, else against the location
of the importing page. -/
def importedUrl (site : InstructionSite) (reference : String) : Except ParseError Url :=
  match site.locator, site.cursor.base with
  | some locator, base =>
      match locator.resolve site.files base reference with
      | .ok url => .ok url
      | .error error => .error (.source error)
  | none, some base =>
      match base.join reference with
      | .ok url => .ok url
      | .error reason => .error (.invalidInstruction importTarget reason.message)
  | none, none =>
      .error (.invalidInstruction importTarget
        ("cannot resolve `" ++ reference ++ "` without a base location"))

/-- The page that an import instruction names. -/
def importedSource (site : InstructionSite) (data : String) : Except ParseError PageSource := do
  let values ← readData importTarget data
  let reference ← required importTarget "src" values
  let url ← importedUrl site reference
  match PageSource.ofUrl site.files url with
  | .ok source => .ok source
  | .error error => .error (.source error)

/-- Grafts the elements of another page under the enclosing element. -/
def importHandler : InstructionHandler := fun site data =>
  Handling.ofExcept ((importedSource site data).map Handling.graftOnly)

def declaredLibrary (data : String) : Except ParseError TagLibrary := do
  let values ← readData taglibTarget data
  let libraryPrefix ← required taglibTarget "prefix" values
  let uri ← required taglibTarget "uri" values
  return ⟨libraryPrefix, uri⟩

/-- Attaches a tag library to the enclosing element. -/
def taglibHandler : InstructionHandler := fun site data =>
  Handling.ofExcept ((declaredLibrary data).map (fun library =>
    Handling.change (fun tree => tree.addTagLibrary site.cursor.parent library)))

/-- The handlers known from the start. -/
def builtIn : Dict InstructionHandler :=
  Dict.ofList [(importTarget, importHandler), (taglibTarget, taglibHandler)]

end Instruction

end LivePage
