import LivePage.Proofs.Blueprint.Agreement

/-!
Contract: readings that depend on imports only as far as these are carried out alike.

Owns:
- steps that do what other steps do, at certain places and up to excused errors;
- the reading of documents follows the reading with other imports if the imports do;
- the failure of a reading at an instruction that it comes to and that fails.

Does not own: how deep imports nest.
-/

namespace LivePage

namespace ParseStep

/-! ## Steps that follow others -/

/-- A step that keeps the cursor and that, at the given places, does what another
step does, unless it ends in an error that is excused. -/
structure Follows (place : Cursor → Prop) (excused : ParseError → Prop)
    (first second : ParseStep) : Prop where
  keeps : ∀ state, (first state).1.cursor = state.cursor
  follows : ∀ state, place state.cursor →
    first state = second state ∨ ∃ error, (first state).2 = .error error ∧ excused error

section Following

variable {place : Cursor → Prop} {excused : ParseError → Prop}
  {first second first' second' : ParseStep}

theorem follows_same {step : ParseStep} (keeps : ∀ state, (step state).1.cursor = state.cursor) :
    Follows place excused step step :=
  ⟨keeps, fun _ _ => Or.inl rfl⟩

theorem Follows.andThen (firstFollows : Follows place excused first first')
    (secondFollows : Follows place excused second second') :
    Follows place excused (first.andThen second) (first'.andThen second') where
  keeps := keeps_andThen firstFollows.keeps secondFollows.keeps
  follows state atPlace := by
    have kept := firstFollows.keeps state
    have same := firstFollows.follows state atPlace
    unfold ParseStep.andThen
    generalize first state = result at kept same ⊢
    rcases same with rfl | ⟨error, failed, isExcused⟩
    · generalize first' state = result at kept ⊢
      rcases result with ⟨next, _ | _⟩
      · exact Or.inl rfl
      · exact secondFollows.follows next (kept.symm ▸ atPlace)
    · obtain ⟨next, outcome⟩ := result
      cases failed
      exact Or.inr ⟨error, rfl, isExcused⟩

theorem Follows.movedBy {inner : Cursor → Prop} {detour : Detour}
    (follows : Follows inner excused first second)
    (moves : ∀ {cursor}, place cursor → inner (detour.go cursor)) :
    Follows place excused (ParseStep.movedBy detour first) (ParseStep.movedBy detour second) where
  keeps := keeps_movedBy detour follows.keeps
  follows state atPlace := by
    have same := follows.follows { state with cursor := detour.go state.cursor } (moves atPlace)
    unfold ParseStep.movedBy
    rcases same with same | ⟨error, failed, isExcused⟩
    · rw [same]
      exact Or.inl rfl
    · exact Or.inr ⟨error, failed, isExcused⟩

theorem follows_choice {step step' : PageTree → ParseStep}
    (each : ∀ tree, Follows place excused (step tree) (step' tree)) :
    Follows place excused (fun state => step state.tree state)
      (fun state => step' state.tree state) where
  keeps state := (each state.tree).keeps state
  follows state := (each state.tree).follows state

end Following

end ParseStep

namespace PageParser

open ParseStep

variable {parser : PageParser} {place : Cursor → Prop} {excused : ParseError → Prop}

theorem compatible_follows
    (stable : ∀ {cursor} number, place cursor → place { cursor with parent := number }) :
    parser.Compatible (Follows place excused) where
  done := follows_same builds_done.cursor_eq
  fail error := follows_same (builds_fail error).cursor_eq
  text run := follows_same (parser.builds_processText run).cursor_eq
  andThen := Follows.andThen
  element definition arguments attributes content content' follows := by
    have opened := (parser.builds_openElement definition arguments attributes).cursor_eq
    have inside : ∀ number, Follows place excused
        (movedBy (.toElement number) content) (movedBy (.toElement number) content') :=
      fun number => follows.movedBy (fun atPlace => stable number atPlace)
    have checked := fun number => (builds_check (fun tree => tree.validate number)).cursor_eq
    exact follows_choice (fun tree =>
      (follows_same opened).andThen ((inside tree.size).andThen (follows_same (checked tree.size))))

section Grafts

variable {files : FileSystem} {graft graft' : PageSource → ParseStep}

/-- Without excuses, a handler does the same if the grafts it asks for do. -/
theorem runHandling_eq (same : ∀ source, Follows place (fun _ => False) (graft source) (graft' source))
    (handling : Handling) {state : ParseState} (atPlace : place state.cursor) :
    runHandling graft handling state = runHandling graft' handling state := by
  induction handling generalizing state with
  | done => rfl
  | fail error => rfl
  | look next inductionHypothesis => exact inductionHypothesis state.tree atPlace
  | put tree next inductionHypothesis => exact inductionHypothesis atPlace
  | graft source next inductionHypothesis =>
      have kept := (same source).keeps state
      rcases (same source).follows state atPlace with grafted | ⟨_, _, impossible⟩
      · simp only [runHandling, ← grafted]
        apply inductionHypothesis
        rw [kept]
        exact atPlace
      · exact impossible.elim

/-- Without excuses, an instruction does the same if all grafts do. -/
theorem follows_processInstruction
    (same : ∀ source, Follows place (fun _ => False) (graft source) (graft' source))
    (target data : String) :
    Follows place (fun _ => False) (parser.processInstruction files graft target data)
      (parser.processInstruction files graft' target data) where
  keeps := keeps_processInstruction (fun source => (same source).keeps) target data
  follows state atPlace := by
    refine Or.inl ?_
    simp only [processInstruction]
    split
    · rfl
    · exact runHandling_eq same _ atPlace

/-- Without excuses, a document is read alike if all pages are grafted alike. -/
theorem follows_parseDocument
    (stable : ∀ {cursor} number, place cursor → place { cursor with parent := number })
    (same : ∀ source, Follows place (fun _ => False) (graft source) (graft' source))
    (document : Markup.Document) :
    Follows place (fun _ => False) (parser.parseDocument files graft document)
      (parser.parseDocument files graft' document) :=
  parseDocument_related (compatible_follows stable)
    (fun instruction _ => follows_processInstruction same instruction.1 instruction.2)

/-- What an import does follows if the graft of the page that it names does. -/
theorem follows_importStep (keeps : ∀ source state, (graft source state).1.cursor = state.cursor)
    {data : String} {imported : PageSource}
    (named : ∀ cursor, place cursor →
      Instruction.importedSource ⟨files, parser.locator, cursor⟩ data = .ok imported)
    (follows : Follows place excused (graft imported) (graft' imported)) :
    Follows place excused (parser.importStep files graft data)
      (parser.importStep files graft' data) where
  keeps state := by
    unfold importStep
    split
    · exact keeps _ _
    · rfl
  follows state atPlace := by
    simp only [importStep, named _ atPlace]
    exact follows.follows state atPlace

end Grafts

end PageParser

/-! ## Handlers without grafts -/

/-- What a handler does if no page is grafted. -/
inductive Handling.GraftFree : Handling → Prop where
  | done : GraftFree .done
  | fail (error : ParseError) : GraftFree (.fail error)
  | look {next : PageTree → Handling} (free : ∀ tree, (next tree).GraftFree) :
      GraftFree (.look next)
  | put {tree : PageTree} {next : Handling} (free : next.GraftFree) : GraftFree (.put tree next)

/-- A handler that never grafts a page. -/
def InstructionHandler.GraftFree (handler : InstructionHandler) : Prop :=
  ∀ site data, (handler site data).GraftFree

namespace PageParser

open ParseStep

variable {parser : PageParser} {files : FileSystem} {graft graft' : PageSource → ParseStep}

theorem runHandling_of_graftFree {handling : Handling} (free : handling.GraftFree) :
    runHandling graft handling = runHandling graft' handling := by
  induction free with
  | done => rfl
  | fail error => rfl
  | look free inductionHypothesis =>
      funext state
      exact congrFun (inductionHypothesis state.tree) state
  | put free inductionHypothesis =>
      funext state
      exact congrFun inductionHypothesis _

theorem processInstruction_of_graftFree {target : String}
    (free : ∀ handler, parser.instructions.get? target = some handler →
      InstructionHandler.GraftFree handler) (data : String) :
    parser.processInstruction files graft target data =
      parser.processInstruction files graft' target data := by
  funext state
  simp only [processInstruction]
  split
  · rfl
  · next handler known => exact congrFun (runHandling_of_graftFree (free handler known _ _)) _

end PageParser

namespace ParseStep

/-! ## Steps that fail -/

/-- A step that fails wherever it is taken at the given places. -/
def FailsAt (place : Cursor → Prop) (step : ParseStep) : Prop :=
  ∀ state, place state.cursor → ∃ error, (step state).2 = .error error

section Failing

variable {place : Cursor → Prop} {first second step : ParseStep}

theorem failsAt_fail (error : ParseError) : FailsAt place (fail error) :=
  fun _ _ => ⟨error, rfl⟩

theorem FailsAt.andThen (fails : FailsAt place first) (second : ParseStep) :
    FailsAt place (first.andThen second) := by
  intro state atPlace
  obtain ⟨error, failed⟩ := fails state atPlace
  refine ⟨error, ?_⟩
  unfold ParseStep.andThen
  generalize first state = result at failed ⊢
  obtain ⟨next, outcome⟩ := result
  cases failed
  rfl

theorem FailsAt.after (fails : FailsAt place second)
    (keeps : ∀ state, (first state).1.cursor = state.cursor) :
    FailsAt place (first.andThen second) := by
  intro state atPlace
  have kept := keeps state
  unfold ParseStep.andThen
  generalize first state = result at kept ⊢
  rcases result with ⟨next, error | _⟩
  · exact ⟨error, rfl⟩
  · exact fails next (kept.symm ▸ atPlace)

theorem FailsAt.movedBy {inner : Cursor → Prop} (fails : FailsAt inner step)
    {detour : Detour} (moves : ∀ {cursor}, place cursor → inner (detour.go cursor)) :
    FailsAt place (ParseStep.movedBy detour step) :=
  fun state atPlace => fails { state with cursor := detour.go state.cursor } (moves atPlace)

end Failing

end ParseStep

namespace PageParser

open ParseStep

section Failing

variable {parser : PageParser} {files : FileSystem} {graft : PageSource → ParseStep}
  {place : Cursor → Prop} {instruction : String × String}

/-- A reading fails if it comes to an instruction that fails at every place of the
reading. -/
private theorem reading_fails
    (stable : ∀ {cursor} number, place cursor → place { cursor with parent := number })
    (keeps : ∀ target data state,
      (parser.processInstruction files graft target data state).1.cursor = state.cursor)
    (fails : FailsAt place
      (parser.processInstruction files graft instruction.1 instruction.2)) :
    (∀ node, instruction ∈ instructionsOf parser.enters node →
      FailsAt place (parser.parseNode files graft node)) ∧
    ∀ run nodes, instruction ∈ instructionsOfAll parser.enters nodes →
      FailsAt place (parser.parseNodes files graft run nodes) := by
  have compatible := @compatible_follows parser place (fun _ => False) stable
  have keepsNode : ∀ node state,
      (parser.parseNode files graft node state).1.cursor = state.cursor := by
    intro node
    have follows : Follows place (fun _ => False) (parser.parseNode files graft node)
        (parser.parseNode files graft node) :=
      parseNode_related compatible (fun instruction _ =>
        follows_same (keeps instruction.1 instruction.2))
    exact follows.keeps
  refine parseNode.mutual_induct _ _ ?_ ?_ ?_ ?_ ?_ ?_
  · intro name attributes children inductionHypothesis member
    rw [parseNode_element]
    cases known : parser.elementDefinition name with
    | error error => exact failsAt_fail error
    | ok found =>
        cases found with
        | none =>
            rw [instructionsOf, not_enters_of_elementDefinition known] at member
            cases member
        | some pair =>
            rw [instructionsOf, enters_of_elementDefinition known, if_pos rfl] at member
            have inside : ∀ number, FailsAt place
                (movedBy (.toElement number)
                  (parser.parseNodes files graft "" children)) :=
              fun number => (inductionHypothesis member).movedBy
                (fun atPlace => stable number atPlace)
            intro state atPlace
            exact (((inside state.tree.size).andThen _).after
              (parser.builds_openElement _ _ _).cursor_eq) state atPlace
  · intro target data member
    rw [List.mem_singleton.mp member] at fails
    exact fails
  · intro node notElement notInstruction member
    rw [instructionsOf] at member
    · cases member
    · exact notElement
    · exact notInstruction
  · intro run member
    cases member
  · intro run node rest text isText inductionHypothesis member
    rw [parseNodes_text isText]
    rw [instructionsOfAll, instructionsOf_of_text isText, List.nil_append] at member
    exact inductionHypothesis member
  · intro run node rest noText ofNode ofRest member
    rw [parseNodes_node noText]
    refine FailsAt.after ?_ (parser.builds_processText run).cursor_eq
    rcases List.mem_append.mp member with inNode | inRest
    · exact (ofNode inNode).andThen _
    · exact (ofRest inRest).after (keepsNode node)

theorem failsAt_parseDocument
    (stable : ∀ {cursor} number, place cursor → place { cursor with parent := number })
    (keeps : ∀ target data state,
      (parser.processInstruction files graft target data state).1.cursor = state.cursor)
    (fails : FailsAt place
      (parser.processInstruction files graft instruction.1 instruction.2))
    {document : Markup.Document}
    (member : instruction ∈ instructionsOfAll parser.enters document.nodes) :
    FailsAt place (parser.parseDocument files graft document) := by
  obtain ⟨node, isNode, inNode⟩ := mem_instructionsOfAll.mp member
  obtain ⟨before, after, nodes_eq⟩ := List.append_of_mem isNode
  have document_eq : document = ⟨before ++ node :: after⟩ := by
    rw [← nodes_eq]
  have keepsBefore : Follows place (fun _ => False) (parser.parseDocument files graft ⟨before⟩)
      (parser.parseDocument files graft ⟨before⟩) :=
    parseDocument_related (compatible_follows stable) (fun instruction _ =>
      follows_same (keeps instruction.1 instruction.2))
  have topLevel : FailsAt place (parser.parseTopLevel files graft node) := by
    cases node with
    | element name attributes children =>
        rw [instructionsOf] at inNode
        split at inNode
        · simp only [parseTopLevel, parseRoot]
          split
          · exact failsAt_fail _
          · split
            · exact failsAt_fail _
            · exact (reading_fails stable keeps fails).2 "" children inNode
        · cases inNode
    | instruction target data =>
        rw [List.mem_singleton.mp inNode] at fails
        exact fails
    | text text => cases inNode
    | cdata text => cases inNode
    | comment text => cases inNode
    | doctype text => cases inNode
  rw [document_eq, parseDocument_append, parseDocument_cons]
  exact (topLevel.andThen _).after keepsBefore.keeps

end Failing

end PageParser

end LivePage
