import LivePage.Blueprint.Parser

/-!
Contract: laws of the steps that a reading of markup consists of.

Owns:
- when a composed step succeeds, and with what state;
- the steps that only look at the tree and the enclosing element and only change
  the tree;
- the reading of nodes, split at nodes that are no text;
- relations between steps that carry over from instructions to whole documents.

Does not own: what single steps do to the tree.
-/

namespace LivePage

theorem eq_ok_of_toOption {ε : Type u} {α : Type v} {outcome : Except ε α} {value : α}
    (isSome : outcome.toOption = some value) : outcome = .ok value := by
  cases outcome with
  | error error => cases isSome
  | ok found => exact congrArg Except.ok (Option.some.inj isSome)

namespace ParseStep

/-! ## Composition -/

theorem done_andThen (step : ParseStep) : done.andThen step = step := rfl

theorem andThen_done (step : ParseStep) : step.andThen done = step := by
  funext state
  unfold andThen
  rcases step state with ⟨next, _ | _⟩ <;> rfl

theorem andThen_assoc (first second third : ParseStep) :
    (first.andThen second).andThen third = first.andThen (second.andThen third) := by
  funext state
  simp only [andThen]
  rcases first state with ⟨next, _ | _⟩ <;> rfl

section Success

variable {state last : ParseState}

theorem andThen_eq_ok_iff {first second : ParseStep} :
    first.andThen second state = (last, .ok ()) ↔
      ∃ middle, first state = (middle, .ok ()) ∧ second middle = (last, .ok ()) := by
  unfold andThen
  rcases first state with ⟨middle, _ | _⟩ <;> simp

theorem edit_eq_ok_iff {change : PageTree → Except ParseError PageTree} :
    edit change state = (last, .ok ()) ↔
      ∃ tree, change state.tree = .ok tree ∧ last = { state with tree := tree } := by
  unfold edit
  cases change state.tree <;> simp [eq_comm]

theorem check_eq_ok_iff {holds : PageTree → Except ParseError Unit} :
    check holds state = (last, .ok ()) ↔ holds state.tree = .ok () ∧ last = state := by
  unfold check
  rw [Prod.mk.injEq, and_comm, eq_comm (a := state)]

theorem movedBy_eq_ok_iff {detour : Detour} {step : ParseStep} :
    movedBy detour step state = (last, .ok ()) ↔
      ∃ inner, step { state with cursor := detour.go state.cursor } = (inner, .ok ()) ∧
        last = { inner with cursor := detour.back state.cursor inner.cursor } := by
  unfold movedBy
  rcases step { state with cursor := detour.go state.cursor } with ⟨inner, _ | _⟩ <;>
    simp [eq_comm]

end Success

/-- Steps that keep the cursor keep it one after another. -/
theorem keeps_andThen {first second : ParseStep}
    (firstKeeps : ∀ state, (first state).1.cursor = state.cursor)
    (secondKeeps : ∀ state, (second state).1.cursor = state.cursor) (state : ParseState) :
    (first.andThen second state).1.cursor = state.cursor := by
  have kept := firstKeeps state
  unfold andThen
  generalize first state = result at kept ⊢
  rcases result with ⟨next, _ | _⟩
  · exact kept
  · exact (secondKeeps next).trans kept

/-- A step that keeps the cursor is left at the place from which it was reached: what is not put
back has not been moved. -/
theorem keeps_movedBy (detour : Detour) {step : ParseStep}
    (keeps : ∀ state, (step state).1.cursor = state.cursor) (state : ParseState) :
    (movedBy detour step state).1.cursor = state.cursor := by
  have kept := keeps { state with cursor := detour.go state.cursor }
  calc (movedBy detour step state).1.cursor
      = detour.back state.cursor (step { state with cursor := detour.go state.cursor }).1.cursor :=
        rfl
    _ = detour.back state.cursor (detour.go state.cursor) := congrArg _ kept
    _ = state.cursor := detour.back_go state.cursor

/-! ## Steps that build -/

/-- A step that looks at nothing but the tree and the number of the enclosing
element, and changes nothing but the tree. -/
structure Builds (step : ParseStep) : Prop where
  cursor_eq : ∀ state, (step state).1.cursor = state.cursor
  calls_eq : ∀ state, (step state).1.calls = state.calls
  agree : ∀ state other, other.tree = state.tree → other.cursor.parent = state.cursor.parent →
    (step other).1.tree = (step state).1.tree ∧ (step other).2 = (step state).2

theorem builds_done : Builds done where
  cursor_eq _ := rfl
  calls_eq _ := rfl
  agree _ _ sameTree _ := ⟨sameTree, rfl⟩

theorem builds_fail (error : ParseError) : Builds (fail error) where
  cursor_eq _ := rfl
  calls_eq _ := rfl
  agree _ _ sameTree _ := ⟨sameTree, rfl⟩

theorem builds_edit (change : PageTree → Except ParseError PageTree) : Builds (edit change) where
  cursor_eq state := by
    unfold edit
    cases change state.tree <;> rfl
  calls_eq state := by
    unfold edit
    cases change state.tree <;> rfl
  agree state other sameTree _ := by
    unfold edit
    rw [sameTree]
    cases change state.tree with
    | ok tree => exact ⟨rfl, rfl⟩
    | error error => exact ⟨sameTree, rfl⟩

theorem builds_check (holds : PageTree → Except ParseError Unit) : Builds (check holds) where
  cursor_eq _ := rfl
  calls_eq _ := rfl
  agree _ _ sameTree _ := ⟨sameTree, congrArg holds sameTree⟩

theorem Builds.andThen {first second : ParseStep} (firstBuilds : first.Builds)
    (secondBuilds : second.Builds) : (first.andThen second).Builds where
  cursor_eq := keeps_andThen firstBuilds.cursor_eq secondBuilds.cursor_eq
  calls_eq state := by
    have kept := firstBuilds.calls_eq state
    unfold ParseStep.andThen
    generalize first state = result at kept ⊢
    rcases result with ⟨next, _ | _⟩
    · exact kept
    · exact (secondBuilds.calls_eq next).trans kept
  agree state other sameTree sameParent := by
    obtain ⟨nextTree, nextOutcome⟩ := firstBuilds.agree state other sameTree sameParent
    have nextParent : (first other).1.cursor.parent = (first state).1.cursor.parent := by
      rw [firstBuilds.cursor_eq, firstBuilds.cursor_eq, sameParent]
    unfold ParseStep.andThen
    generalize first state = result at nextTree nextOutcome nextParent ⊢
    generalize first other = otherResult at nextTree nextOutcome nextParent ⊢
    rcases result with ⟨next, _ | _⟩ <;> rcases otherResult with ⟨otherNext, _ | _⟩
    · exact ⟨nextTree, nextOutcome⟩
    · cases nextOutcome
    · cases nextOutcome
    · exact secondBuilds.agree next otherNext nextTree nextParent

/-- A step that is chosen by the tree and the enclosing element builds if every
choice does. -/
theorem builds_choice {step : Nat → PageTree → ParseStep}
    (each : ∀ parent tree, (step parent tree).Builds) :
    Builds (fun state => step state.cursor.parent state.tree state) where
  cursor_eq state := (each _ _).cursor_eq state
  calls_eq state := (each _ _).calls_eq state
  agree state other sameTree sameParent := by
    simp only [sameTree, sameParent]
    exact (each _ _).agree state other sameTree sameParent

end ParseStep

namespace PageParser

open ParseStep

variable (parser : PageParser)

theorem builds_applyAttributes (definition : Definition) (number : Nat)
    (attributes : List Markup.Attribute) :
    (parser.applyAttributes definition number attributes).Builds := by
  induction attributes with
  | nil => exact builds_done
  | cons written rest inductionHypothesis => exact (builds_edit _).andThen inductionHypothesis

theorem builds_openElement (definition : Definition) (arguments : List Json)
    (attributes : List Markup.Attribute) :
    (parser.openElement definition arguments attributes).Builds :=
  @builds_choice (fun parent tree => (edit (addElement parent definition)).andThen
      ((edit (fun next => .ok (arguments.foldl
        (fun next argument => next.pushArgument tree.size argument) next))).andThen
        (parser.applyAttributes definition tree.size attributes)))
    (fun _ tree => (builds_edit _).andThen
      ((builds_edit _).andThen (parser.builds_applyAttributes definition tree.size attributes)))

theorem builds_addTextElement (text : String) : (parser.addTextElement text).Builds := by
  unfold addTextElement
  cases parser.registry.get? Definition.textTag with
  | none => exact builds_fail _
  | some definition =>
      exact @builds_choice (fun parent tree => (edit (addElement parent definition)).andThen
          ((edit (fun next => .ok (next.setAttribute tree.size Definition.contentAttribute
            text))).andThen (check (fun next => next.validate tree.size))))
        (fun _ _ => (builds_edit _).andThen ((builds_edit _).andThen (builds_check _)))

/-- What text that is not blank does below a parent of the given definition. -/
def textStep (parent : Nat) (text : String) : Option Definition → ParseStep
  | none => fail (.textNotAllowed Definition.rootTag)
  | some definition =>
      match definition.content with
      | .reject => fail (.textNotAllowed definition.tag)
      | .ignore => done
      | .asAttribute =>
          edit (fun tree => .ok (tree.appendAttribute parent Definition.contentAttribute text))
      | .asChild => parser.addTextElement text

theorem processText_eq_textStep {run : String} (notBlank : (TextRun.trimmed run).isEmpty = false)
    (state : ParseState) :
    parser.processText run state =
      parser.textStep state.cursor.parent (TextRun.trimmed run)
        (state.tree.element state.cursor.parent).definition state := by
  simp only [processText, notBlank]
  cases (state.tree.element state.cursor.parent).definition with
  | none => rfl
  | some definition =>
      simp only [textStep]
      cases definition.content <;> rfl

theorem builds_textStep (parent : Nat) (text : String) (definition : Option Definition) :
    (parser.textStep parent text definition).Builds := by
  cases definition with
  | none => exact builds_fail _
  | some definition =>
      rw [textStep]
      cases definition.content with
      | reject => exact builds_fail _
      | ignore => exact builds_done
      | asAttribute => exact builds_edit _
      | asChild => exact parser.builds_addTextElement text

theorem builds_processText (run : String) : (parser.processText run).Builds := by
  cases blank : (TextRun.trimmed run).isEmpty with
  | true =>
      have nothing : parser.processText run = done := by
        funext state
        simp only [processText, blank]
        rfl
      rw [nothing]
      exact builds_done
  | false =>
      rw [show parser.processText run = fun state => _ from
        funext (processText_eq_textStep parser blank)]
      exact @builds_choice (fun parent tree => parser.textStep parent (TextRun.trimmed run)
        (tree.element parent).definition) (fun parent _ => parser.builds_textStep parent _ _)

/-! ## Reading of nodes -/

section Reading

variable (files : FileSystem) (graft : PageSource → ParseStep)

/-- Takes in an element under a number, with its content taken in by the given step. -/
def numberedElementStep (definition : Definition) (arguments : List Json)
    (attributes : List Markup.Attribute) (content : ParseStep) (number : Nat) : ParseStep :=
  (parser.openElement definition arguments attributes).andThen
    ((movedBy (.toElement number) content).andThen
      (check (fun tree => tree.validate number)))

/-- Takes in an element under the next number. -/
def elementStep (definition : Definition) (arguments : List Json)
    (attributes : List Markup.Attribute) (content : ParseStep) : ParseStep := fun state =>
  parser.numberedElementStep definition arguments attributes content state.tree.size state

theorem parseNode_element (name : Markup.Name) (attributes : List Markup.Attribute)
    (children : List Markup.Node) :
    parser.parseNode files graft (.element name attributes children) =
      match parser.elementDefinition name with
      | .error error => fail error
      | .ok none => done
      | .ok (some (definition, arguments)) =>
          parser.elementStep definition arguments attributes
            (parser.parseNodes files graft "" children) := by
  funext state
  simp only [parseNode]
  cases parser.elementDefinition name with
  | error error => rfl
  | ok found =>
      cases found with
      | none => rfl
      | some pair => rfl

theorem parseNodes_nil (run : String) :
    parser.parseNodes files graft run [] = parser.processText run := rfl

variable {parser files graft}

theorem parseNodes_text {node : Markup.Node} {text : String} (isText : runText? node = some text)
    (run : String) (rest : List Markup.Node) :
    parser.parseNodes files graft run (node :: rest) =
      parser.parseNodes files graft (run ++ text) rest := by
  rw [parseNodes, isText]

theorem parseNodes_node {node : Markup.Node} (noText : runText? node = none) (run : String)
    (rest : List Markup.Node) :
    parser.parseNodes files graft run (node :: rest) =
      (parser.processText run).andThen
        ((parser.parseNode files graft node).andThen
          (parser.parseNodes files graft "" rest)) := by
  rw [parseNodes, noText]

/-- A node that is no text divides the reading. -/
theorem parseNodes_append_cons {node : Markup.Node} (noText : runText? node = none)
    (run : String) (before after : List Markup.Node) :
    parser.parseNodes files graft run (before ++ node :: after) =
      (parser.parseNodes files graft run before).andThen
        ((parser.parseNode files graft node).andThen
          (parser.parseNodes files graft "" after)) := by
  induction before generalizing run with
  | nil => exact parseNodes_node noText run after
  | cons head rest inductionHypothesis =>
      rw [List.cons_append]
      cases isText : runText? head with
      | some text =>
          rw [parseNodes_text isText, parseNodes_text isText]
          exact inductionHypothesis (run ++ text)
      | none =>
          rw [parseNodes_node isText, parseNodes_node isText, inductionHypothesis,
            andThen_assoc, andThen_assoc]

theorem parseTopLevel_root {name : Markup.Name}
    (isRoot : parser.tagNamespaces.resolve name = .plain Definition.rootTag)
    (children : List Markup.Node) :
    parser.parseTopLevel files graft (.element name [] children) =
      parser.parseNodes files graft "" children := by
  simp [parseTopLevel, parseRoot, isRoot]

theorem parseDocument_cons (node : Markup.Node) (rest : List Markup.Node) :
    parser.parseDocument files graft ⟨node :: rest⟩ =
      (parser.parseTopLevel files graft node).andThen
        (parser.parseDocument files graft ⟨rest⟩) := rfl

theorem parseDocument_append (before after : List Markup.Node) :
    parser.parseDocument files graft ⟨before ++ after⟩ =
      (parser.parseDocument files graft ⟨before⟩).andThen
        (parser.parseDocument files graft ⟨after⟩) := by
  induction before with
  | nil => rfl
  | cons head rest inductionHypothesis =>
      rw [List.cons_append, parseDocument_cons, inductionHypothesis, parseDocument_cons,
        andThen_assoc]

/-- A page is read exactly when its source is a document that is taken in at the
root of an empty tree. -/
theorem parse_eq_ok_iff {source : PageSource} {blueprint : Blueprint} :
    parser.parse files source = .ok blueprint ↔
      ∃ document last, source.document = .ok document ∧
        parser.parseDocument files (parser.graft files importLimit) document (start source.url) =
          (last, .ok ()) ∧
        blueprint = ⟨last.tree, source.text, source.url⟩ := by
  unfold parse run
  cases source.document with
  | error reason => simp
  | ok document =>
      constructor
      · intro parsed
        dsimp only at parsed
        split at parsed
        · next last taken =>
            cases parsed
            exact ⟨document, last, rfl, taken, rfl⟩
        · cases parsed
      · rintro ⟨_, last, ⟨⟩, taken, rfl⟩
        dsimp only
        rw [taken]

end Reading

/-! ## Instructions among nodes -/

mutual

/-- The instructions of a node, except inside elements that are not entered. -/
def instructionsOf (enters : Markup.Name → Bool) : Markup.Node → List (String × String)
  | .element name _ children => if enters name then instructionsOfAll enters children else []
  | .instruction target data => [(target, data)]
  | _ => []

def instructionsOfAll (enters : Markup.Name → Bool) : List Markup.Node → List (String × String)
  | [] => []
  | node :: rest => instructionsOf enters node ++ instructionsOfAll enters rest

end

theorem instructionsOf_of_text {node : Markup.Node} {text : String}
    (isText : runText? node = some text) (enters : Markup.Name → Bool) :
    instructionsOf enters node = [] := by
  cases node with
  | text text => rfl
  | cdata text => rfl
  | element name attributes children => cases isText
  | instruction target data => cases isText
  | comment text => cases isText
  | doctype text => cases isText

theorem instructionsOfAll_append (enters : Markup.Name → Bool) (before after : List Markup.Node) :
    instructionsOfAll enters (before ++ after) =
      instructionsOfAll enters before ++ instructionsOfAll enters after := by
  induction before with
  | nil => rfl
  | cons head rest inductionHypothesis =>
      rw [List.cons_append, instructionsOfAll, inductionHypothesis, instructionsOfAll,
        List.append_assoc]

theorem mem_instructionsOfAll {enters : Markup.Name → Bool} {nodes : List Markup.Node}
    {instruction : String × String} :
    instruction ∈ instructionsOfAll enters nodes ↔
      ∃ node ∈ nodes, instruction ∈ instructionsOf enters node := by
  induction nodes with
  | nil => simp [instructionsOfAll]
  | cons head rest inductionHypothesis => simp [instructionsOfAll, inductionHypothesis]

mutual

theorem mem_instructionsOf_of_entered {enters : Markup.Name → Bool}
    {instruction : String × String} :
    ∀ {node : Markup.Node}, instruction ∈ instructionsOf enters node →
      instruction ∈ instructionsOf (fun _ => true) node
  | .element _ _ _, member => by
      rw [instructionsOf] at member ⊢
      split at member
      · exact mem_instructionsOfAll_of_entered member
      · cases member
  | .instruction _ _, member => member
  | .text _, member => member
  | .cdata _, member => member
  | .comment _, member => member
  | .doctype _, member => member

/-- Instructions that are reached are instructions of the nodes. -/
theorem mem_instructionsOfAll_of_entered {enters : Markup.Name → Bool}
    {instruction : String × String} :
    ∀ {nodes : List Markup.Node}, instruction ∈ instructionsOfAll enters nodes →
      instruction ∈ instructionsOfAll (fun _ => true) nodes
  | [], member => member
  | node :: rest, member => by
      rcases List.mem_append.mp member with inNode | inRest
      · exact List.mem_append_left _ (mem_instructionsOf_of_entered inNode)
      · exact List.mem_append_right _ (mem_instructionsOfAll_of_entered inRest)

end

/-- Whether the content of an element is read; one without a known namespace is
dropped. -/
def enters (name : Markup.Name) : Bool :=
  parser.tagNamespaces.resolve name ≠ .unresolvable

theorem elementDefinition_eq_none_iff {parser : PageParser} {name : Markup.Name} :
    parser.elementDefinition name = .ok none ↔
      parser.tagNamespaces.resolve name = .unresolvable := by
  unfold elementDefinition
  cases parser.tagNamespaces.resolve name with
  | unresolvable => simp
  | namespaced shortName localName =>
      dsimp only
      split
      · cases parser.registry.get? Definition.htmlTag <;> simp
      · simp
  | plain tag =>
      dsimp only
      cases parser.lookUp tag <;> simp [Except.map]

theorem not_enters_of_elementDefinition {parser : PageParser} {name : Markup.Name}
    (dropped : parser.elementDefinition name = .ok none) : parser.enters name = false := by
  simp [enters, elementDefinition_eq_none_iff.mp dropped]

theorem enters_of_elementDefinition {parser : PageParser} {name : Markup.Name}
    {found : Definition × List Json} (known : parser.elementDefinition name = .ok (some found)) :
    parser.enters name = true := by
  unfold elementDefinition at known
  unfold enters
  split at known
  · cases known
  · next resolved => simp [resolved]
  · next resolved => simp [resolved]

/-! ## Relations between readings -/

/-- A relation between steps that holds of everything that a reading consists of,
as soon as it holds of the instructions. -/
structure Compatible (related : ParseStep → ParseStep → Prop) : Prop where
  done : related done done
  fail : ∀ error, related (fail error) (fail error)
  text : ∀ run, related (parser.processText run) (parser.processText run)
  andThen : ∀ {first first' second second'}, related first first' → related second second' →
    related (first.andThen second) (first'.andThen second')
  element : ∀ definition arguments attributes {content content'}, related content content' →
    related (parser.elementStep definition arguments attributes content)
      (parser.elementStep definition arguments attributes content')

section Relations

variable {parser} {related : ParseStep → ParseStep → Prop} {files files' : FileSystem}
  {graft graft' : PageSource → ParseStep}

/-- The instructions of a list are carried out in a related way. -/
def InstructionsRelated (parser : PageParser) (related : ParseStep → ParseStep → Prop)
    (files files' : FileSystem) (graft graft' : PageSource → ParseStep)
    (instructions : List (String × String)) : Prop :=
  ∀ instruction ∈ instructions,
    related (parser.processInstruction files graft instruction.1 instruction.2)
      (parser.processInstruction files' graft' instruction.1 instruction.2)

private theorem reading_related (compatible : parser.Compatible related) :
    (∀ node, InstructionsRelated parser related files files' graft graft'
        (instructionsOf parser.enters node) →
      related (parser.parseNode files graft node) (parser.parseNode files' graft' node)) ∧
    ∀ run nodes, InstructionsRelated parser related files files' graft graft'
        (instructionsOfAll parser.enters nodes) →
      related (parser.parseNodes files graft run nodes)
        (parser.parseNodes files' graft' run nodes) := by
  -- The induction follows the two readers: elements, instructions and other nodes,
  -- then the end of a list, text at its front, and a node that ends a run of text.
  refine parseNode.mutual_induct _ _ ?_ ?_ ?_ ?_ ?_ ?_
  · intro name attributes children inductionHypothesis instructions
    rw [parseNode_element, parseNode_element]
    cases known : parser.elementDefinition name with
    | error error => exact compatible.fail error
    | ok found =>
        cases found with
        | none => exact compatible.done
        | some pair =>
            rw [instructionsOf, enters_of_elementDefinition known, if_pos rfl] at instructions
            exact compatible.element _ _ _ (inductionHypothesis instructions)
  · intro target data instructions
    exact instructions (target, data) (by simp [instructionsOf])
  · intro node notElement notInstruction _
    cases node with
    | element name attributes children => exact (notElement _ _ _ rfl).elim
    | instruction target data => exact (notInstruction _ _ rfl).elim
    | text text => exact compatible.done
    | cdata text => exact compatible.done
    | comment text => exact compatible.done
    | doctype text => exact compatible.done
  · intro run _
    exact compatible.text run
  · intro run node rest text isText inductionHypothesis instructions
    rw [parseNodes_text isText, parseNodes_text isText]
    apply inductionHypothesis
    intro instruction member
    exact instructions instruction (List.mem_append_right _ member)
  · intro run node rest noText ofNode ofRest instructions
    rw [parseNodes_node noText, parseNodes_node noText]
    refine compatible.andThen (compatible.text run) (compatible.andThen (ofNode ?_) (ofRest ?_))
    · intro instruction member
      exact instructions instruction (List.mem_append_left _ member)
    · intro instruction member
      exact instructions instruction (List.mem_append_right _ member)

theorem parseNode_related (compatible : parser.Compatible related) {node : Markup.Node}
    (instructions : InstructionsRelated parser related files files' graft graft'
      (instructionsOf parser.enters node)) :
    related (parser.parseNode files graft node) (parser.parseNode files' graft' node) :=
  (reading_related compatible).1 node instructions

theorem parseNodes_related (compatible : parser.Compatible related) {nodes : List Markup.Node}
    (instructions : InstructionsRelated parser related files files' graft graft'
      (instructionsOfAll parser.enters nodes)) (run : String) :
    related (parser.parseNodes files graft run nodes)
      (parser.parseNodes files' graft' run nodes) :=
  (reading_related compatible).2 run nodes instructions

private theorem parseTopLevel_related (compatible : parser.Compatible related)
    {node : Markup.Node} (instructions : InstructionsRelated parser related files files' graft graft'
      (instructionsOf parser.enters node)) :
    related (parser.parseTopLevel files graft node) (parser.parseTopLevel files' graft' node) := by
  cases node with
  | instruction target data => exact instructions (target, data) (by simp [instructionsOf])
  | comment text => exact compatible.done
  | doctype text => exact compatible.done
  | text text =>
      simp only [parseTopLevel]
      split
      · exact compatible.done
      · exact compatible.fail _
  | cdata text =>
      simp only [parseTopLevel]
      split
      · exact compatible.done
      · exact compatible.fail _
  | element name attributes children =>
      simp only [parseTopLevel, parseRoot]
      split
      · exact compatible.fail _
      · next isRoot =>
          -- The root is entered, so that its instructions are among those of the document.
          have entered : parser.enters name = true := by
            unfold enters
            rw [Classical.not_not.mp isRoot]
            rfl
          rw [instructionsOf, entered, if_pos rfl] at instructions
          split
          · exact compatible.fail _
          · exact parseNodes_related compatible instructions ""

theorem parseDocument_related (compatible : parser.Compatible related)
    {document : Markup.Document}
    (instructions : InstructionsRelated parser related files files' graft graft'
      (instructionsOfAll parser.enters document.nodes)) :
    related (parser.parseDocument files graft document)
      (parser.parseDocument files' graft' document) := by
  unfold parseDocument
  generalize document.nodes = nodes at instructions
  induction nodes with
  | nil => exact compatible.done
  | cons node rest inductionHypothesis =>
      refine compatible.andThen (parseTopLevel_related compatible ?_) (inductionHypothesis ?_)
      · intro instruction member
        exact instructions instruction (List.mem_append_left _ member)
      · intro instruction member
        exact instructions instruction (List.mem_append_right _ member)

end Relations

end PageParser

end LivePage
