import LivePage.Proofs.Blueprint.Instruction
import LivePage.Proofs.Blueprint.Links
import LivePage.Proofs.Blueprint.Step

/-!
Contract: what is left of an element while a page is read on.

Owns:
- trees that extend other ones: every element keeps its number, its definition and its
  parent;
- handlers whose trees extend those they look at; those known from the start are of this
  kind;
- the steps of a reading extend the tree, whether they succeed or not;
- the element that is added for an element of the markup.

Does not own: the content of elements, and when a step succeeds.
-/

namespace LivePage

open ParseStep

namespace PageTree

/-! ## Trees that extend others -/

/-- Every element of a tree is in the next one, with the definition and the parent it has. -/
structure ExtendsTo (tree next : PageTree) : Prop where
  size_le : tree.size ≤ next.size
  kept : ∀ {number}, number < tree.size →
    (next.element number).definition = (tree.element number).definition ∧
      (next.element number).parent = (tree.element number).parent

namespace ExtendsTo

theorem refl (tree : PageTree) : tree.ExtendsTo tree :=
  ⟨Nat.le_refl _, fun _ => ⟨rfl, rfl⟩⟩

theorem trans {first second third : PageTree} (before : first.ExtendsTo second)
    (after : second.ExtendsTo third) : first.ExtendsTo third where
  size_le := Nat.le_trans before.size_le after.size_le
  kept inside := by
    obtain ⟨sameDefinition, sameParent⟩ := before.kept inside
    obtain ⟨stillDefinition, stillParent⟩ := after.kept (Nat.lt_of_lt_of_le inside before.size_le)
    exact ⟨stillDefinition.trans sameDefinition, stillParent.trans sameParent⟩

theorem modify (tree : PageTree) (changed : Nat) {change : Element → Element}
    (sameDefinition : ∀ element, (change element).definition = element.definition)
    (sameParent : ∀ element, (change element).parent = element.parent) :
    tree.ExtendsTo (tree.modify changed change) where
  size_le := Nat.le_of_eq (size_modify tree changed change).symm
  kept {number} _ := ⟨view_modify tree changed Element.definition sameDefinition number,
    view_modify tree changed Element.parent sameParent number⟩

theorem push (tree : PageTree) (added : Element) :
    tree.ExtendsTo ⟨tree.elements.push added⟩ where
  size_le := by
    show tree.elements.size ≤ (tree.elements.push added).size
    rw [Array.size_push]
    exact Nat.le_succ _
  kept {number} inside := by
    have bound : number < tree.elements.size := inside
    have same : PageTree.element ⟨tree.elements.push added⟩ number = tree.element number := by
      rw [element, element?, Array.getElem?_push_lt bound, element, element?,
        Array.getElem?_eq_getElem bound]
    rw [same]
    exact ⟨rfl, rfl⟩

theorem addChild {tree next : PageTree} {parent : Nat} {child : Definition}
    (added : tree.addChild parent child = .ok next) : tree.ExtendsTo next := by
  unfold PageTree.addChild at added
  split at added
  · cases added
  · cases added
    exact (push tree _).trans (modify _ parent (fun _ => rfl) (fun _ => rfl))

theorem addTagLibrary (tree : PageTree) (number : Nat) (library : TagLibrary) :
    tree.ExtendsTo (tree.addTagLibrary number library) :=
  modify tree number (fun _ => rfl) (fun _ => rfl)

theorem setAttribute (tree : PageTree) (number : Nat) (name value : String) :
    tree.ExtendsTo (tree.setAttribute number name value) :=
  modify tree number (fun _ => rfl) (fun _ => rfl)

theorem appendAttribute (tree : PageTree) (number : Nat) (name value : String) :
    tree.ExtendsTo (tree.appendAttribute number name value) :=
  modify tree number (fun _ => rfl) (fun _ => rfl)

theorem pushArguments (tree : PageTree) (number : Nat) (arguments : List Json) :
    tree.ExtendsTo (arguments.foldl (fun next argument => next.pushArgument number argument)
      tree) := by
  induction arguments generalizing tree with
  | nil => exact refl tree
  | cons argument rest inductionHypothesis =>
      have first : tree.ExtendsTo (tree.pushArgument number argument) :=
        modify tree number (fun _ => rfl) (fun _ => rfl)
      exact first.trans (inductionHypothesis _)

end ExtendsTo

/-- A new child comes last, with its definition and its parent. -/
theorem element_of_addChild {tree next : PageTree} {parent : Nat} {child : Definition}
    (added : tree.addChild parent child = .ok next) :
    next.size = tree.size + 1 ∧ (next.element tree.size).definition = some child ∧
      (next.element tree.size).parent = some parent := by
  unfold addChild at added
  split at added
  · cases added
  · cases added
    have isLast : PageTree.element
        ⟨tree.elements.push (Element.bare (some child) (some parent))⟩ tree.size =
          Element.bare (some child) (some parent) := by
      simp [element, element?, size]
    have sameDefinition : ∀ element : Element,
        (element.withChild tree.size child.tag).definition = element.definition := fun _ => rfl
    have sameParent : ∀ element : Element,
        (element.withChild tree.size child.tag).parent = element.parent := fun _ => rfl
    refine ⟨?_, ?_, ?_⟩
    · rw [size_modify]
      exact Array.size_push _
    · exact (view_modify _ parent Element.definition sameDefinition _).trans
        (congrArg Element.definition isLast)
    · exact (view_modify _ parent Element.parent sameParent _).trans
        (congrArg Element.parent isLast)

end PageTree

/-! ## Handlers -/

/-- Every tree that a handling puts extends the tree that is there at that time. -/
def Handling.Extends : Handling → PageTree → Prop
  | .done, _ => True
  | .fail _, _ => True
  | .look next, tree => (next tree).Extends tree
  | .put changed next, tree => tree.ExtendsTo changed ∧ next.Extends changed
  | .graft _ next, tree => ∀ outcome grafted, tree.ExtendsTo grafted →
      (next outcome).Extends grafted

/-- All handlers of a parser extend the trees they find. -/
def PageParser.HandlersExtend (parser : PageParser) : Prop :=
  ∀ target handler, parser.instructions.get? target = some handler →
    ∀ site data tree, (handler site data).Extends tree

namespace Instruction

theorem extends_importHandler (site : InstructionSite) (data : String) (tree : PageTree) :
    (importHandler site data).Extends tree := by
  unfold importHandler
  cases importedSource site data with
  | error error => trivial
  | ok source =>
      intro outcome grafted _
      cases outcome <;> trivial

theorem extends_taglibHandler (site : InstructionSite) (data : String) (tree : PageTree) :
    (taglibHandler site data).Extends tree := by
  unfold taglibHandler
  cases declaredLibrary data with
  | error error => trivial
  | ok library => exact ⟨.addTagLibrary tree site.cursor.parent library, trivial⟩

end Instruction

/-- A parser that has only the handlers known from the start. -/
theorem PageParser.handlersExtend_of_builtIn {parser : PageParser}
    (builtIn : parser.instructions = Instruction.builtIn) : parser.HandlersExtend := by
  intro target handler known site data
  rcases Instruction.handler_of_builtIn (builtIn ▸ known) with rfl | rfl
  · exact Instruction.extends_importHandler site data
  · exact Instruction.extends_taglibHandler site data

/-! ## Steps -/

namespace ParseStep

/-- A step that extends the tree, whether it succeeds or not. -/
def Extends (step : ParseStep) : Prop :=
  ∀ state : ParseState, state.tree.ExtendsTo (step state).1.tree

theorem extends_done : Extends done := fun state => .refl state.tree

theorem extends_fail (error : ParseError) : Extends (fail error) := fun state => .refl state.tree

theorem extends_check (holds : PageTree → Except ParseError Unit) : Extends (check holds) :=
  fun state => .refl state.tree

theorem extends_edit {change : PageTree → Except ParseError PageTree}
    (extending : ∀ tree next, change tree = .ok next → tree.ExtendsTo next) :
    Extends (edit change) := by
  intro state
  unfold edit
  cases changed : change state.tree with
  | error error => exact .refl state.tree
  | ok next => exact extending _ _ changed

theorem Extends.andThen {first second : ParseStep} (firstExtends : first.Extends)
    (secondExtends : second.Extends) : (first.andThen second).Extends := by
  intro state
  have before := firstExtends state
  unfold ParseStep.andThen
  generalize first state = result at before ⊢
  rcases result with ⟨next, _ | _⟩
  · exact before
  · exact before.trans (secondExtends next)

theorem Extends.movedBy {step : ParseStep} (extending : step.Extends) (detour : Detour) :
    (step.movedBy detour).Extends :=
  fun state => extending { state with cursor := detour.go state.cursor }

end ParseStep

namespace PageParser

variable {parser : PageParser}

theorem extends_addElement (parent : Nat) (definition : Definition) :
    Extends (edit (addElement parent definition)) := by
  apply extends_edit
  intro tree next changed
  unfold addElement at changed
  split at changed
  · next added =>
      cases changed
      exact .addChild added
  · cases changed

theorem extends_applyAttributes (definition : Definition) (number : Nat)
    (attributes : List Markup.Attribute) :
    (parser.applyAttributes definition number attributes).Extends := by
  induction attributes with
  | nil => exact extends_done
  | cons written rest inductionHypothesis =>
      refine Extends.andThen (extends_edit ?_) inductionHypothesis
      intro tree next changed
      cases named : parser.attributeName definition written.name with
      | error error =>
          rw [named] at changed
          cases changed
      | ok name =>
          rw [named] at changed
          cases changed
          exact .setAttribute tree number name written.value

/-- What follows on adding an element writes into it. -/
theorem extends_describe (definition : Definition) (arguments : List Json)
    (attributes : List Markup.Attribute) (number : Nat) :
    ((edit (fun tree => .ok (arguments.foldl
      (fun tree argument => tree.pushArgument number argument) tree))).andThen
        (parser.applyAttributes definition number attributes)).Extends := by
  refine Extends.andThen (extends_edit ?_) (extends_applyAttributes definition number attributes)
  intro tree next changed
  cases changed
  exact .pushArguments tree number arguments

theorem extends_openElement (definition : Definition) (arguments : List Json)
    (attributes : List Markup.Attribute) :
    (parser.openElement definition arguments attributes).Extends := fun state =>
  (Extends.andThen (extends_addElement state.cursor.parent definition)
    (extends_describe definition arguments attributes state.tree.size)) state

/-- The element that is opened gets the next number, its definition, and the enclosing
element as its parent. -/
theorem element_of_openElement {definition : Definition} {arguments : List Json}
    {attributes : List Markup.Attribute} {state next : ParseState}
    (opened : parser.openElement definition arguments attributes state = (next, .ok ())) :
    state.tree.size < next.tree.size ∧
      (next.tree.element state.tree.size).definition = some definition ∧
      (next.tree.element state.tree.size).parent = some state.cursor.parent := by
  obtain ⟨middle, isAdded, described⟩ := andThen_eq_ok_iff.mp opened
  obtain ⟨tree, added, rfl⟩ := edit_eq_ok_iff.mp isAdded
  have extended := @extends_describe parser definition arguments attributes state.tree.size
    { state with tree := tree }
  rw [described] at extended
  have asChild : state.tree.addChild state.cursor.parent definition = .ok tree := by
    unfold addElement at added
    split at added
    · next isChild =>
        cases added
        exact isChild
    · cases added
  obtain ⟨size_eq, isDefined, isPlaced⟩ := PageTree.element_of_addChild asChild
  have inside : state.tree.size < tree.size := by omega
  obtain ⟨sameDefinition, sameParent⟩ := extended.kept inside
  exact ⟨Nat.lt_of_lt_of_le inside extended.size_le, sameDefinition.trans isDefined,
    sameParent.trans isPlaced⟩

theorem extends_addTextElement (text : String) : (parser.addTextElement text).Extends := by
  intro state
  unfold addTextElement
  split
  · exact .refl state.tree
  · refine Extends.andThen (extends_addElement _ _) (Extends.andThen (extends_edit ?_)
      (extends_check _)) state
    intro tree next changed
    cases changed
    exact .setAttribute tree _ _ _

theorem extends_processText (run : String) : (parser.processText run).Extends := by
  intro state
  unfold processText
  dsimp only
  split
  · exact .refl state.tree
  · split
    · exact .refl state.tree
    · split
      · exact .refl state.tree
      · exact .refl state.tree
      · exact .appendAttribute state.tree _ _ _
      · exact extends_addTextElement _ state

theorem compatible_extends : parser.Compatible (fun step _ => step.Extends) where
  done := extends_done
  fail := extends_fail
  text := extends_processText
  andThen := Extends.andThen
  element definition arguments attributes _ _ extending := by
    intro state
    exact (extends_openElement definition arguments attributes).andThen
      ((extending.movedBy _).andThen (extends_check _)) state

/-! ## Instructions -/

section Grafts

variable {files : FileSystem} {graft : PageSource → ParseStep}

theorem extends_runHandling (graftExtends : ∀ source, (graft source).Extends)
    {handling : Handling} {state : ParseState} (extending : handling.Extends state.tree) :
    state.tree.ExtendsTo (runHandling graft handling state).1.tree := by
  induction handling generalizing state with
  | done => exact .refl state.tree
  | fail error => exact .refl state.tree
  | look next inductionHypothesis => exact inductionHypothesis state.tree extending
  | put tree next inductionHypothesis =>
      obtain ⟨grown, others⟩ := extending
      exact grown.trans (@inductionHypothesis { state with tree := tree } others)
  | graft source next inductionHypothesis =>
      have grafted := graftExtends source state
      exact grafted.trans (inductionHypothesis _ (extending _ _ grafted))

theorem extends_processInstruction (handlers : parser.HandlersExtend)
    (graftExtends : ∀ source, (graft source).Extends) (target data : String) :
    (parser.processInstruction files graft target data).Extends := by
  intro state
  unfold processInstruction
  split
  · exact .refl state.tree
  · next handler known =>
      let noted : ParseState :=
        { state with calls := state.calls ++ [⟨target, data, state.cursor, state.tree.size⟩] }
      exact @extends_runHandling graft graftExtends _ noted (handlers target handler known _ _ _)

theorem extends_parseNodes (handlers : parser.HandlersExtend)
    (graftExtends : ∀ source, (graft source).Extends) (run : String) (nodes : List Markup.Node) :
    (parser.parseNodes files graft run nodes).Extends :=
  @parseNodes_related parser _ files files graft graft compatible_extends nodes
    (fun instruction _ =>
      extends_processInstruction handlers graftExtends instruction.1 instruction.2) run

theorem extends_parseDocument (handlers : parser.HandlersExtend)
    (graftExtends : ∀ source, (graft source).Extends) (document : Markup.Document) :
    (parser.parseDocument files graft document).Extends :=
  @parseDocument_related parser _ files files graft graft compatible_extends document
    (fun instruction _ =>
      extends_processInstruction handlers graftExtends instruction.1 instruction.2)

theorem extends_graft (handlers : parser.HandlersExtend) (remaining : Nat) (source : PageSource) :
    (parser.graft files remaining source).Extends := by
  induction remaining generalizing source with
  | zero => exact extends_fail _
  | succ remaining inductionHypothesis =>
      rw [graft]
      split
      · exact extends_fail _
      · next document isDocument =>
          exact (extends_parseDocument handlers inductionHypothesis document).movedBy _

end Grafts

end PageParser

end LivePage
