import LivePage.Blueprint.Parser
import LivePage.Proofs.Location.TopFile

/-!
Contract: what the instructions known from the start do, as steps.

Owns:
- parsers that have the handlers known from the start;
- the page that an import of a file names;
- the note of a call, imports and tag libraries as steps of their own.

Does not own: what a grafted page does.
-/

namespace LivePage

open ParseStep

namespace Instruction

theorem builtIn_cases {target : String} {handler : InstructionHandler}
    (known : builtIn.get? target = some handler) :
    target = importTarget ∧ handler = importHandler ∨
      target = taglibTarget ∧ handler = taglibHandler := by
  have builtIn_eq : builtIn =
      (Dict.empty.insert importTarget importHandler).insert taglibTarget taglibHandler := rfl
  rw [builtIn_eq, Dict.get?_insert, Dict.get?_insert] at known
  split at known
  · next isTaglib => exact Or.inr ⟨isTaglib, (Option.some.inj known).symm⟩
  · split at known
    · next isImport => exact Or.inl ⟨isImport, (Option.some.inj known).symm⟩
    · cases known

theorem handler_of_builtIn {target : String} {handler : InstructionHandler}
    (known : builtIn.get? target = some handler) :
    handler = importHandler ∨ handler = taglibHandler :=
  (builtIn_cases known).imp And.right And.right

/-- An import of a file at the top of the file system names the page in the file. -/
theorem importedSource_of_holdsAtTop {files : FileSystem} {cursor : Cursor} {base url : Url}
    {data reference path name text : String} {values : Dict String} {content : List UInt8}
    (read : readData importTarget data = .ok values) (given : values.get? "src" = some reference)
    (atBase : cursor.base = some base) (joined : base.join reference = .ok url)
    (isFile : url.isFile = true) (path_eq : url.filePath? = some path)
    (holds : files.HoldsAtTop path name content) (decoded : Text.decodeUtf8? content = some text) :
    importedSource ⟨files, none, cursor⟩ data = .ok ⟨text, some url⟩ := by
  have found := PageSource.ofUrl_of_holdsAtTop isFile path_eq holds decoded
  simp only [importedSource, importedUrl, read, required, given, atBase, joined, found, bind,
    Except.bind]

/-- What an import names depends on the location of the importing document only. -/
theorem importedSource_of_base {files : FileSystem} {locator : Option Locator}
    {cursor other : Cursor} (sameBase : other.base = cursor.base) (data : String) :
    importedSource ⟨files, locator, other⟩ data = importedSource ⟨files, locator, cursor⟩ data := by
  unfold importedSource importedUrl
  simp only [sameBase]

end Instruction

namespace PageParser

/-- A parser whose own instructions have the handlers known from the start. -/
structure KnowsBuiltIns (parser : PageParser) : Prop where
  imports : parser.instructions.get? Instruction.importTarget = some Instruction.importHandler
  libraries : parser.instructions.get? Instruction.taglibTarget = some Instruction.taglibHandler

theorem knowsBuiltIns_new (registry : ComponentRegistry) : (new registry).KnowsBuiltIns :=
  ⟨rfl, rfl⟩

/-! ## Instructions as steps -/

/-- Notes a call of a handler. -/
def note (target data : String) : ParseStep := fun state =>
  ({ state with calls := state.calls ++ [⟨target, data, state.cursor, state.tree.size⟩] }, .ok ())

/-- Grafts the page that an import names, as seen from the place of the import. -/
def importStep (parser : PageParser) (files : FileSystem) (graft : PageSource → ParseStep)
    (data : String) : ParseStep := fun state =>
  match Instruction.importedSource ⟨files, parser.locator, state.cursor⟩ data with
  | .ok source => graft source state
  | .error error => (state, .error error)

/-- Attaches the declared library to the enclosing element. -/
def libraryStep (data : String) : ParseStep := fun state =>
  match Instruction.declaredLibrary data with
  | .ok library =>
      ({ state with tree := state.tree.addTagLibrary state.cursor.parent library }, .ok ())
  | .error error => (state, .error error)

variable {parser : PageParser} {files : FileSystem} {graft : PageSource → ParseStep}
  {target : String}

theorem processInstruction_of_unknown (unknown : parser.instructions.get? target = none)
    (data : String) :
    parser.processInstruction files graft target data = fail (.unknownInstruction target) := by
  funext state
  rw [processInstruction, unknown]
  rfl

theorem runHandling_graftOnly (source : PageSource) :
    runHandling graft (Handling.graftOnly source) = graft source := by
  funext state
  simp only [Handling.graftOnly, runHandling]
  rcases graft source state with ⟨next, _ | _⟩ <;> rfl

theorem processInstruction_import
    (bound : parser.instructions.get? target = some Instruction.importHandler) (data : String) :
    parser.processInstruction files graft target data =
      (note target data).andThen (parser.importStep files graft data) := by
  funext state
  simp only [processInstruction, bound, Instruction.importHandler, andThen, note, importStep]
  cases Instruction.importedSource ⟨files, parser.locator, state.cursor⟩ data with
  | error error => rfl
  | ok source => exact congrFun (runHandling_graftOnly source) _

theorem processInstruction_taglib
    (bound : parser.instructions.get? target = some Instruction.taglibHandler) (data : String) :
    parser.processInstruction files graft target data =
      (note target data).andThen (libraryStep data) := by
  funext state
  simp only [processInstruction, bound, Instruction.taglibHandler, andThen, note, libraryStep]
  cases Instruction.declaredLibrary data <;> rfl

end PageParser

end LivePage
