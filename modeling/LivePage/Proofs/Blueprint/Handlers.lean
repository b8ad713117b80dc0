import LivePage.Proofs.Blueprint.Instruction
import LivePage.Proofs.Blueprint.Links
import LivePage.Proofs.Blueprint.Step

/-!
Contract: what a page tree is like whichever handlers took part in reading it.

Owns:
- handlers that change trees by the operations of trees only, and leave the element that
  encloses their instruction in it; those known from the start are of this kind;
- the steps of a reading keep trees made, whether they succeed or not;
- the page tree of a page is made by operations.

Does not own: what makes a tree valid.
-/

namespace LivePage

open ParseStep PageTree

/-! ## Handlers -/

/-- Whatever tree a handling puts is made by operations and has the element of a place. It
may rely on the same of the trees it looks at. -/
inductive Handling.Respects (place : Nat) : Handling → Prop
  | done : Respects place .done
  | fail (error : ParseError) : Respects place (.fail error)
  | look {next : PageTree → Handling}
      (each : ∀ tree, tree.Made → place < tree.size → Respects place (next tree)) :
      Respects place (.look next)
  | put {tree : PageTree} {next : Handling} (made : tree.Made) (inside : place < tree.size)
      (others : Respects place next) : Respects place (.put tree next)
  | graft (source : PageSource) {next : Except ParseError Unit → Handling}
      (each : ∀ outcome, Respects place (next outcome)) : Respects place (.graft source next)

namespace PageParser

/-- All handlers of a parser respect trees and the places of their instructions. -/
def HandlersRespect (parser : PageParser) : Prop :=
  ∀ target handler, parser.instructions.get? target = some handler →
    ∀ site data, (handler site data).Respects site.cursor.parent

theorem respects_importHandler (site : InstructionSite) (data : String) :
    (Instruction.importHandler site data).Respects site.cursor.parent := by
  unfold Instruction.importHandler
  cases Instruction.importedSource site data with
  | error error => exact .fail error
  | ok source =>
      refine .graft source ?_
      intro outcome
      cases outcome with
      | ok nothing => exact .done
      | error error => exact .fail error

theorem respects_taglibHandler (site : InstructionSite) (data : String) :
    (Instruction.taglibHandler site data).Respects site.cursor.parent := by
  unfold Instruction.taglibHandler
  cases Instruction.declaredLibrary data with
  | error error => exact .fail error
  | ok library =>
      refine .look ?_
      intro tree made inside
      have sameSize : (tree.addTagLibrary site.cursor.parent library).size = tree.size :=
        size_modify _ _ _
      exact .put (made.addTagLibrary site.cursor.parent library) (sameSize ▸ inside) .done

/-- A parser that has only the handlers known from the start. -/
theorem handlersRespect_of_builtIn {parser : PageParser}
    (builtIn : parser.instructions = Instruction.builtIn) : parser.HandlersRespect := by
  intro target handler known site data
  rcases Instruction.handler_of_builtIn (builtIn ▸ known) with rfl | rfl
  · exact respects_importHandler site data
  · exact respects_taglibHandler site data

end PageParser

/-! ## Steps -/

namespace ParseState

/-- The tree is made by operations and has an element of the number; the cursor is given. -/
structure Stands (number : Nat) (cursor : Cursor) (state : ParseState) : Prop where
  made : state.tree.Made
  inside : number < state.tree.size
  cursor_eq : state.cursor = cursor

end ParseState

namespace ParseStep

/-- Whatever comes of a step, a property of states stays. -/
def Preserves (holds : ParseState → Prop) (step : ParseStep) : Prop :=
  ∀ state, holds state → holds (step state).1

/-- A step that keeps the tree made and the enclosing element in it. -/
def KeepsMade (step : ParseStep) : Prop :=
  ∀ cursor : Cursor, step.Preserves (ParseState.Stands cursor.parent cursor)

/-- A step that only writes into elements. -/
def Writes (step : ParseStep) : Prop :=
  ∀ number cursor, step.Preserves (ParseState.Stands number cursor)

theorem Preserves.andThen {holds : ParseState → Prop} {first second : ParseStep}
    (firstPreserves : first.Preserves holds) (secondPreserves : second.Preserves holds) :
    (first.andThen second).Preserves holds := by
  intro state held
  have middle := firstPreserves state held
  unfold ParseStep.andThen
  cases outcome : first state with
  | mk next result =>
      rw [outcome] at middle
      cases result with
      | error error => exact middle
      | ok nothing => exact secondPreserves next middle

/-- At another place the cursor is another one, until it is put back. -/
theorem Preserves.movedBy {number : Nat} {cursor : Cursor} {detour : Detour} {step : ParseStep}
    (preserves : step.Preserves (ParseState.Stands number (detour.go cursor))) :
    (ParseStep.movedBy detour step).Preserves (ParseState.Stands number cursor) := by
  rintro state ⟨made, inside, rfl⟩
  have after := preserves { state with cursor := detour.go state.cursor } ⟨made, inside, rfl⟩
  exact ⟨after.made, after.inside,
    (congrArg _ after.cursor_eq).trans (detour.back_go state.cursor)⟩

theorem writes_edit {change : PageTree → Except ParseError PageTree}
    (keeps : ∀ tree next, tree.Made → change tree = .ok next → next.Made ∧ next.size = tree.size) :
    (edit change).Writes := by
  intro number cursor state stands
  unfold edit
  cases changed : change state.tree with
  | error error => exact stands
  | ok next =>
      obtain ⟨made, size_eq⟩ := keeps state.tree next stands.made changed
      exact ⟨made, size_eq ▸ stands.inside, stands.cursor_eq⟩

theorem writes_check (holds : PageTree → Except ParseError Unit) : (check holds).Writes :=
  fun _ _ _ stands => stands

theorem Writes.andThen {first second : ParseStep} (firstWrites : first.Writes)
    (secondWrites : second.Writes) : (first.andThen second).Writes :=
  fun number cursor => (firstWrites number cursor).andThen (secondWrites number cursor)

/-- A new child of the enclosing element, and a step that may rely on it. -/
theorem stands_addElement {cursor : Cursor} {state : ParseState}
    (stands : state.Stands cursor.parent cursor) (definition : Definition) {rest : ParseStep}
    (restPreserves : rest.Preserves (ParseState.Stands state.tree.size cursor)) :
    (((edit (PageParser.addElement state.cursor.parent definition)).andThen rest state).1).Stands
      cursor.parent cursor := by
  unfold ParseStep.andThen edit PageParser.addElement
  have enclosing : state.cursor.parent = cursor.parent := congrArg Cursor.parent stands.cursor_eq
  cases added : state.tree.addChild state.cursor.parent definition with
  | error error => exact stands
  | ok next =>
      rw [enclosing] at added
      have made := Made.addChild stands.made stands.inside added
      obtain ⟨-, next_eq⟩ := (addChild_eq_ok_iff _ _ _ _).mp added
      have size_eq : next.size = state.tree.size + 1 := by
        rw [next_eq, size_addBranch stands.inside]
        rfl
      have grown : ParseState.Stands state.tree.size cursor { state with tree := next } :=
        ⟨made, size_eq ▸ Nat.lt_succ_self _, stands.cursor_eq⟩
      have after := restPreserves _ grown
      exact ⟨after.made, Nat.lt_trans stands.inside after.inside, after.cursor_eq⟩

end ParseStep

namespace PageParser

variable {parser : PageParser}

theorem writes_applyAttributes (definition : Definition) (number : Nat)
    (attributes : List Markup.Attribute) :
    (parser.applyAttributes definition number attributes).Writes := by
  induction attributes with
  | nil => exact fun _ _ _ stands => stands
  | cons written rest inductionHypothesis =>
      refine Writes.andThen (writes_edit ?_) inductionHypothesis
      intro tree next made changed
      cases named : parser.attributeName definition written.name with
      | error error =>
          rw [named] at changed
          cases changed
      | ok name =>
          rw [named] at changed
          cases changed
          exact ⟨made.setAttribute number name written.value, size_modify _ _ _⟩

theorem writes_pushArguments (number : Nat) (arguments : List Json) :
    (edit (fun tree => .ok (arguments.foldl
      (fun tree argument => tree.pushArgument number argument) tree))).Writes := by
  refine writes_edit ?_
  intro tree next made changed
  cases changed
  induction arguments generalizing tree with
  | nil => exact ⟨made, rfl⟩
  | cons argument rest inductionHypothesis =>
      obtain ⟨stillMade, size_eq⟩ :=
        inductionHypothesis _ (made.pushArgument number argument)
      exact ⟨stillMade, size_eq.trans (size_modify _ _ _)⟩

theorem keepsMade_elementStep (definition : Definition) (arguments : List Json)
    (attributes : List Markup.Attribute) {content : ParseStep} (keeps : content.KeepsMade) :
    (parser.elementStep definition arguments attributes content).KeepsMade := by
  -- The content is read with the new element around it.
  have inside : ∀ number cursor, (ParseStep.movedBy (.toElement number) content).Preserves
      (ParseState.Stands number cursor) :=
    fun number cursor => (keeps { cursor with parent := number }).movedBy
  intro cursor state stands
  let number := state.tree.size
  let pushed := edit (fun tree => .ok (arguments.foldl
    (fun tree argument => tree.pushArgument number argument) tree))
  let described := parser.applyAttributes definition number attributes
  let filled := (ParseStep.movedBy (.toElement number) content).andThen
    (check (fun tree => tree.validate number))
  have asOne : parser.elementStep definition arguments attributes content state =
      (edit (addElement state.cursor.parent definition)).andThen
        ((pushed.andThen described).andThen filled) state := by
    rw [← andThen_assoc]
    rfl
  rw [asOne]
  refine stands_addElement stands definition (Preserves.andThen (Preserves.andThen ?_ ?_)
    (Preserves.andThen ?_ ?_))
  · exact writes_pushArguments number arguments number cursor
  · exact writes_applyAttributes definition number attributes number cursor
  · exact inside number cursor
  · exact writes_check _ number cursor

theorem keepsMade_processText (run : String) : (parser.processText run).KeepsMade := by
  intro cursor state stands
  unfold processText
  dsimp only
  split
  · exact stands
  · split
    · exact stands
    · split
      · exact stands
      · exact stands
      · refine (writes_edit ?_) _ _ _ stands
        intro tree next made changed
        cases changed
        exact ⟨made.appendAttribute _ _ _, size_modify _ _ _⟩
      · unfold addTextElement
        split
        · exact stands
        · refine stands_addElement stands _ (Preserves.andThen ?_ (writes_check _ _ _))
          refine (writes_edit ?_) _ _
          intro tree next made changed
          cases changed
          exact ⟨made.setAttribute _ _ _, size_modify _ _ _⟩

theorem compatible_keepsMade : parser.Compatible (fun step _ => step.KeepsMade) where
  done := fun _ _ stands => stands
  fail := fun _ _ _ stands => stands
  text := keepsMade_processText
  andThen := fun first second cursor => (first cursor).andThen (second cursor)
  element := fun definition arguments attributes _ _ keeps =>
    keepsMade_elementStep definition arguments attributes keeps

/-! ## Instructions -/

section Grafts

variable {files : FileSystem} {graft : PageSource → ParseStep}

theorem preserves_runHandling (graftKeeps : ∀ source, (graft source).KeepsMade) {cursor : Cursor}
    {handling : Handling} (respects : handling.Respects cursor.parent) :
    (runHandling graft handling).Preserves (ParseState.Stands cursor.parent cursor) := by
  induction respects with
  | done => exact fun _ stands => stands
  | fail error => exact fun _ stands => stands
  | look _ inductionHypothesis =>
      intro state stands
      exact inductionHypothesis state.tree stands.made stands.inside state stands
  | put made inside _ inductionHypothesis =>
      intro state stands
      exact inductionHypothesis _ ⟨made, inside, stands.cursor_eq⟩
  | graft source _ inductionHypothesis =>
      intro state stands
      have grafted := graftKeeps source cursor state stands
      exact inductionHypothesis (graft source state).2 (graft source state).1 grafted

theorem keepsMade_processInstruction (respect : parser.HandlersRespect)
    (graftKeeps : ∀ source, (graft source).KeepsMade) (target data : String) :
    (parser.processInstruction files graft target data).KeepsMade := by
  intro cursor state stands
  unfold processInstruction
  split
  · exact stands
  · next handler known =>
      have respects := respect target handler known ⟨files, parser.locator, state.cursor⟩ data
      simp only [stands.cursor_eq] at respects ⊢
      exact preserves_runHandling graftKeeps respects _ ⟨stands.made, stands.inside, rfl⟩

theorem keepsMade_parseDocument (respect : parser.HandlersRespect)
    (graftKeeps : ∀ source, (graft source).KeepsMade) (document : Markup.Document) :
    (parser.parseDocument files graft document).KeepsMade :=
  @parseDocument_related parser _ files files graft graft compatible_keepsMade document
    (fun instruction _ =>
      keepsMade_processInstruction respect graftKeeps instruction.1 instruction.2)

theorem keepsMade_graft (respect : parser.HandlersRespect) (remaining : Nat)
    (source : PageSource) : (parser.graft files remaining source).KeepsMade := by
  induction remaining generalizing source with
  | zero => exact fun _ _ stands => stands
  | succ remaining inductionHypothesis =>
      rw [graft]
      split
      · exact fun _ _ stands => stands
      · next document isDocument =>
          -- Another document is read at another location, below the same element.
          have keeps : (parser.parseDocument files (parser.graft files remaining)
              document).KeepsMade :=
            keepsMade_parseDocument respect inductionHypothesis document
          exact fun cursor =>
            (keeps { cursor with base := source.url, depth := cursor.depth + 1 }).movedBy

end Grafts

/-- The page tree of a page is made by the operations of trees. -/
theorem made_of_parse {files : FileSystem} {source : PageSource} {blueprint : Blueprint}
    (respect : parser.HandlersRespect) (parsed : parser.parse files source = .ok blueprint) :
    blueprint.tree.Made := by
  obtain ⟨document, last, -, taken, rfl⟩ := parse_eq_ok_iff.mp parsed
  have keeps : (parser.parseDocument files (parser.graft files importLimit) document).KeepsMade :=
    keepsMade_parseDocument respect (keepsMade_graft respect importLimit) document
  have after := keeps ⟨root, source.url, 0⟩ (start source.url) ⟨.empty, Nat.zero_lt_one, rfl⟩
  rw [taken] at after
  exact after.made

end PageParser

end LivePage
