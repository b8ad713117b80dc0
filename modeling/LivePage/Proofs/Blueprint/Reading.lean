import LivePage.Proofs.Blueprint.Branch
import LivePage.Proofs.Blueprint.Step
import LivePage.Proofs.Blueprint.TextRun

/-!
Contract: what runs of text and elements need to be taken in, and what they become.

Owns:
- which attributes and which runs of text an element may have;
- the content that a run of text leaves in the element around it;
- the steps that take in text and elements, with the exact condition of their
  success and the page tree they lead to.

Does not own: the nodes below an element.
-/

namespace LivePage

/-! ## Attributes -/

namespace Definition

theorem recognizes_eq_true_iff {definition : Definition} {name : String} :
    definition.recognizes name = true ↔
      (definition.attributes.get? name).isSome = true ∨
        (name = "content" ∧ definition.content = .asAttribute) ∨
        definition.openAttributes = true := by
  unfold recognizes attributeKind?
  cases definition.attributes.get? name with
  | some kind => simp
  | none =>
      dsimp only
      split
      · next stored => exact iff_of_true rfl (Or.inr (Or.inl stored))
      · next notStored =>
          cases definition.openAttributes with
          | false =>
              refine iff_of_false (fun impossible => nomatch impossible) ?_
              rintro (declared | stored | isOpen)
              · cases declared
              · exact notStored stored
              · cases isOpen
          | true => simp

end Definition

namespace PageParser

open ParseStep PageTree

variable (parser : PageParser)

/-- Whether an attribute may stand in an element: its name is a plain one that the
definition declares, stores text under or leaves open, or belongs to a known namespace. -/
inductive AttributeFits (definition : Definition) (name : Markup.Name) : Prop where
  | plain {localName : String}
      (resolved : parser.attributeNamespaces.resolve name = .plain localName)
      (recognized : (definition.attributes.get? localName).isSome = true ∨
        (localName = "content" ∧ definition.content = .asAttribute) ∨
        definition.openAttributes = true)
  | namespaced {shortName localName : String}
      (resolved : parser.attributeNamespaces.resolve name = .namespaced shortName localName)

/-- Attributes as they are stored one after another; the last of a name counts. -/
def storedOnto (attributes : List Markup.Attribute) (stored : Dict String) : Dict String :=
  attributes.foldl (fun stored written =>
    stored.insert (parser.attributeNamespaces.resolve written.name).normalized written.value) stored

variable {parser}

theorem attributeName_eq_ok_iff {definition : Definition} {name : Markup.Name} {stored : String} :
    parser.attributeName definition name = .ok stored ↔
      parser.AttributeFits definition name ∧
        stored = (parser.attributeNamespaces.resolve name).normalized := by
  unfold attributeName
  cases resolved : parser.attributeNamespaces.resolve name with
  | unresolvable =>
      constructor
      · intro impossible
        cases impossible
      · rintro ⟨plain | namespaced, -⟩ <;> simp_all
  | namespaced shortName localName =>
      have fits : parser.AttributeFits definition name := .namespaced resolved
      simp only [fits, true_and, Except.ok.injEq, ResolvedName.normalized]
      exact eq_comm
  | plain localName =>
      have fits_iff : parser.AttributeFits definition name ↔
          definition.recognizes localName = true := by
        rw [Definition.recognizes_eq_true_iff]
        constructor
        · rintro (⟨resolved', recognized⟩ | ⟨resolved'⟩) <;> rw [resolved] at resolved'
          · cases resolved'
            exact recognized
          · cases resolved'
        · exact fun recognized => .plain resolved recognized
      rw [fits_iff]
      dsimp only
      cases definition.recognizes localName with
      | false => simp
      | true =>
          simp only [if_true, true_and, Except.ok.injEq, ResolvedName.normalized]
          exact eq_comm

section Success

variable {state last : ParseState}

theorem applyAttributes_eq_ok_iff {tree : PageTree} {parent : Nat} (inside : parent < tree.size)
    {definition : Definition} {attributes : List Markup.Attribute} {label : Label} :
    parser.applyAttributes definition tree.size attributes
        { state with tree := tree.addBranch parent (.node label []) } = (last, .ok ()) ↔
      (∀ written ∈ attributes, parser.AttributeFits definition written.name) ∧
        last = { state with
          tree := tree.addBranch parent
            (.node { label with
              attributes := parser.storedOnto attributes label.attributes } []) } := by
  induction attributes generalizing label with
  | nil => simp [applyAttributes, done, storedOnto, eq_comm]
  | cons written rest inductionHypothesis =>
      have stored : ∀ name,
          (tree.addBranch parent (.node label [])).setAttribute tree.size name written.value =
            tree.addBranch parent (.node { label with
              attributes := label.attributes.insert name written.value } []) :=
        fun _ => modify_addBranch inside rfl rfl rfl
      rw [applyAttributes, andThen_eq_ok_iff]
      simp only [edit_eq_ok_iff, List.forall_mem_cons, stored]
      constructor
      · rintro ⟨_, ⟨_, named, rfl⟩, readRest⟩
        cases name : parser.attributeName definition written.name with
        | error error =>
            rw [name] at named
            cases named
        | ok storedName =>
            rw [name] at named
            cases named
            obtain ⟨fits, rfl⟩ := attributeName_eq_ok_iff.mp name
            obtain ⟨restFit, rfl⟩ := inductionHypothesis.mp readRest
            exact ⟨⟨fits, restFit⟩, rfl⟩
      · rintro ⟨⟨fits, restFit⟩, rfl⟩
        have name := attributeName_eq_ok_iff.mpr ⟨fits, rfl⟩
        refine ⟨_, ⟨_, by rw [name]; rfl, rfl⟩, ?_⟩
        exact inductionHypothesis.mpr ⟨restFit, rfl⟩

/-! ## Elements -/

theorem addElement_eq_ok_iff {tree next : PageTree} {parent : Nat} {definition : Definition} :
    addElement parent definition tree = .ok next ↔
      Definition.Admits (tree.element parent).definition definition ∧
        (tree.element parent).HasRoom [definition.tag] ∧
        next = tree.addBranch parent (.bare (some definition)) := by
  rw [← and_assoc, ← Element.accept_eq_ok_iff, ← addChild_eq_ok_iff, addElement]
  cases tree.addChild parent definition <;> simp

/-- An element before its content is taken in. -/
def opened (parser : PageParser) (definition : Definition) (arguments : List Json)
    (attributes : List Markup.Attribute) : Branch :=
  .node ⟨some definition, parser.storedOnto attributes .empty, arguments, .empty⟩ []

private theorem foldl_pushArgument {tree : PageTree} {parent : Nat} (inside : parent < tree.size)
    (arguments : List Json) (label : Label) :
    arguments.foldl (fun next argument => next.pushArgument tree.size argument)
        (tree.addBranch parent (.node label [])) =
      tree.addBranch parent
        (.node { label with arguments := label.arguments ++ arguments } []) := by
  induction arguments generalizing label with
  | nil => simp
  | cons argument rest inductionHypothesis =>
      have pushed : (tree.addBranch parent (.node label [])).pushArgument tree.size argument =
          tree.addBranch parent
            (.node { label with arguments := label.arguments ++ [argument] } []) :=
        modify_addBranch inside rfl rfl rfl
      rw [List.foldl_cons, pushed, inductionHypothesis]
      simp

theorem openElement_eq_ok_iff (inside : state.cursor.parent < state.tree.size)
    {definition : Definition} {arguments : List Json} {attributes : List Markup.Attribute} :
    parser.openElement definition arguments attributes state = (last, .ok ()) ↔
      Definition.Admits (state.tree.element state.cursor.parent).definition definition ∧
        (state.tree.element state.cursor.parent).HasRoom [definition.tag] ∧
        (∀ written ∈ attributes, parser.AttributeFits definition written.name) ∧
        last = { state with
          tree := state.tree.addBranch state.cursor.parent
            (parser.opened definition arguments attributes) } := by
  have withArguments : arguments.foldl
      (fun next argument => next.pushArgument state.tree.size argument)
        (state.tree.addBranch state.cursor.parent (.bare (some definition))) =
      state.tree.addBranch state.cursor.parent
        (.node ⟨some definition, .empty, arguments, .empty⟩ []) :=
    foldl_pushArgument inside arguments ⟨some definition, .empty, [], .empty⟩
  simp only [openElement, andThen_eq_ok_iff, edit_eq_ok_iff, addElement_eq_ok_iff]
  constructor
  · rintro ⟨_, ⟨_, ⟨admitted, room, rfl⟩, rfl⟩, _, ⟨_, ⟨⟩, rfl⟩, applied⟩
    rw [withArguments] at applied
    obtain ⟨fits, rfl⟩ := (applyAttributes_eq_ok_iff inside).mp applied
    exact ⟨admitted, room, fits, rfl⟩
  · rintro ⟨admitted, room, fits, rfl⟩
    refine ⟨_, ⟨_, ⟨admitted, room, rfl⟩, rfl⟩, _, ⟨_, rfl, rfl⟩, ?_⟩
    rw [withArguments]
    exact (applyAttributes_eq_ok_iff inside).mpr ⟨fits, rfl⟩

/-- An element is taken in exactly when its parent admits it and has room for it,
its attributes fit, and its content is taken in below it and passes the check. -/
theorem elementStep_eq_ok_iff (inside : state.cursor.parent < state.tree.size)
    {definition : Definition} {arguments : List Json} {attributes : List Markup.Attribute}
    {content : ParseStep} :
    parser.elementStep definition arguments attributes content state = (last, .ok ()) ↔
      Definition.Admits (state.tree.element state.cursor.parent).definition definition ∧
        (state.tree.element state.cursor.parent).HasRoom [definition.tag] ∧
        (∀ written ∈ attributes, parser.AttributeFits definition written.name) ∧
        ∃ inner,
          content { state with
            tree := state.tree.addBranch state.cursor.parent
              (parser.opened definition arguments attributes)
            cursor := { state.cursor with parent := state.tree.size } } = (inner, .ok ()) ∧
          inner.tree.validate state.tree.size = .ok () ∧
          last = { inner with
            cursor := { inner.cursor with parent := state.cursor.parent } } := by
  simp only [elementStep, numberedElementStep, andThen_eq_ok_iff, openElement_eq_ok_iff inside,
    movedBy_eq_ok_iff, check_eq_ok_iff]
  constructor
  · rintro ⟨_, ⟨admitted, room, fits, rfl⟩, _, ⟨inner, taken, rfl⟩, valid, rfl⟩
    exact ⟨admitted, room, fits, inner, taken, valid, rfl⟩
  · rintro ⟨admitted, room, fits, inner, taken, valid, rfl⟩
    exact ⟨_, ⟨admitted, room, fits, rfl⟩, _, ⟨inner, taken, rfl⟩, valid, rfl⟩

/-! ## Text -/

/-- What text becomes as an element of its own. -/
def textBranch (definition : Definition) (text : String) : Branch :=
  .node ⟨some definition, Dict.empty.insert Definition.contentAttribute text, [], .empty⟩ []

theorem addTextElement_eq_ok_iff (inside : state.cursor.parent < state.tree.size)
    {definition : Definition} (known : parser.registry.get? Definition.textTag = some definition)
    {text : String} :
    parser.addTextElement text state = (last, .ok ()) ↔
      Definition.Admits (state.tree.element state.cursor.parent).definition definition ∧
        (state.tree.element state.cursor.parent).HasRoom [definition.tag] ∧
        definition.CountsFit [] ∧
        last = { state with
          tree := state.tree.addBranch state.cursor.parent (textBranch definition text) } := by
  have withText : (state.tree.addBranch state.cursor.parent
        (.bare (some definition))).setAttribute state.tree.size Definition.contentAttribute text =
      state.tree.addBranch state.cursor.parent (textBranch definition text) :=
    modify_addBranch inside rfl rfl rfl
  have complete_iff : (state.tree.addBranch state.cursor.parent
        (textBranch definition text)).validate state.tree.size = .ok () ↔
      definition.CountsFit [] := by
    rw [validate_addBranch_eq_ok_iff inside]
    simp [textBranch, Branch.label, Branch.children]
  simp only [addTextElement, known, andThen_eq_ok_iff, edit_eq_ok_iff, check_eq_ok_iff,
    addElement_eq_ok_iff]
  constructor
  · rintro ⟨_, ⟨_, ⟨admitted, room, rfl⟩, rfl⟩, _, ⟨_, ⟨⟩, rfl⟩, complete, rfl⟩
    rw [withText] at complete ⊢
    exact ⟨admitted, room, complete_iff.mp complete, rfl⟩
  · rintro ⟨admitted, room, complete, rfl⟩
    refine ⟨_, ⟨_, ⟨admitted, room, rfl⟩, rfl⟩, _, ⟨_, rfl, rfl⟩, ?_⟩
    rw [withText]
    exact ⟨complete_iff.mpr complete, rfl⟩

end Success

/-- Whether an element may have text: its definition does not reject it and, where
text becomes an element of its own, admits the element for text, which is complete
without children. -/
structure TakesText (parser : PageParser) (definition : Definition) : Prop where
  notRejected : definition.content ≠ .reject
  asElement : definition.content = .asChild →
    ∃ text, parser.registry.get? Definition.textTag = some text ∧
      Definition.Admits (some definition) text ∧ text.CountsFit []

/-- Whether a run of text may stand somewhere. The root has no definition and
takes blank runs only. -/
def TextFits (parser : PageParser) (parent : Option Definition) (run : String) : Prop :=
  Text.allBlank run = false → ∃ definition, parent = some definition ∧ parser.TakesText definition

/-- The content that a run of text leaves in the element around it. -/
def textContent (parser : PageParser) (parent : Option Definition) (run : String) :
    List Contribution :=
  if Text.allBlank run then []
  else
    match parent.map Definition.content with
    | some .asAttribute => [.text (TextRun.trimmed run)]
    | some .asChild =>
        match parser.registry.get? Definition.textTag with
        | some definition => [.child (textBranch definition (TextRun.trimmed run))]
        | none => []
    | _ => []

theorem processText_of_blank {run : String} (blank : Text.allBlank run = true) :
    parser.processText run = done := by
  funext state
  simp [processText, TextRun.isEmpty_trimmed, blank, done]

end PageParser

/-! ## Steps that hand content over -/

/-- The state after some content was handed to the enclosing element. -/
def ParseState.receive (state : ParseState) (content : List Contribution) : ParseState :=
  { state with tree := content.foldl (PageTree.contribute state.cursor.parent) state.tree }

/-- A step below a parent of the given definition that succeeds exactly when a
condition holds and the parent has room for some content. It then hands this
content over and does nothing else. -/
def ParseStep.Yields (parent : Option Definition) (fits : Prop) (content : List Contribution)
    (step : ParseStep) : Prop :=
  ∀ state last, state.cursor.parent < state.tree.size →
    (state.tree.element state.cursor.parent).definition = parent →
    (step state = (last, .ok ()) ↔
      fits ∧ (state.tree.element state.cursor.parent).HasRoom (Branch.childTags content) ∧
        last = state.receive content)

namespace ParseStep

theorem yields_done (parent : Option Definition) : Yields parent True [] done := by
  intro state last _ _
  have room := Element.hasRoom_nil (state.tree.element state.cursor.parent)
  constructor
  · rintro ⟨⟩
    exact ⟨trivial, room, rfl⟩
  · rintro ⟨-, -, rfl⟩
    rfl

/-- A step that always fails yields anything under a condition that never holds. -/
theorem yields_of_fails {parent : Option Definition} {content : List Contribution}
    {step : ParseStep} (fails : ∀ state last, (state.tree.element
      state.cursor.parent).definition = parent → step state ≠ (last, .ok ())) :
    Yields parent False content step := by
  intro state last _ known
  constructor
  · exact fun taken => (fails state last known taken).elim
  · exact fun impossible => impossible.1.elim

theorem Yields.of_iff {parent : Option Definition} {fits fits' : Prop}
    {content : List Contribution} {step : ParseStep} (yields : Yields parent fits content step)
    (same : fits ↔ fits') : Yields parent fits' content step := by
  rw [← propext same]
  exact yields

theorem Yields.andThen {parent : Option Definition} {firstFits secondFits : Prop}
    {firstContent secondContent : List Contribution} {first second : ParseStep}
    (firstYields : Yields parent firstFits firstContent first)
    (secondYields : Yields parent secondFits secondContent second) :
    Yields parent (firstFits ∧ secondFits) (firstContent ++ secondContent)
      (first.andThen second) := by
  intro state last inside known
  have insideMiddle : (state.receive firstContent).cursor.parent <
      (state.receive firstContent).tree.size :=
    Nat.lt_of_lt_of_le inside (PageTree.size_le_foldl_contribute inside firstContent)
  have sameDefinition := PageTree.definition_foldl_contribute inside inside firstContent
  have ofSecond := secondYields (state.receive firstContent) last insideMiddle
    (sameDefinition.trans known)
  have room_iff : (state.tree.element state.cursor.parent).HasRoom
        (Branch.childTags firstContent ++ Branch.childTags secondContent) ↔
      (state.tree.element state.cursor.parent).HasRoom (Branch.childTags firstContent) ∧
        ((state.receive firstContent).tree.element state.cursor.parent).HasRoom
          (Branch.childTags secondContent) :=
    Element.hasRoom_append_iff sameDefinition
      (PageTree.childCount_foldl_contribute inside firstContent)
  have both : (state.receive firstContent).receive secondContent =
      state.receive (firstContent ++ secondContent) := by
    simp [ParseState.receive]
  rw [andThen_eq_ok_iff, Branch.childTags_append, room_iff]
  constructor
  · rintro ⟨middle, taken, takenNext⟩
    obtain ⟨fits, room, rfl⟩ := (firstYields state middle inside known).mp taken
    obtain ⟨fitsNext, roomNext, rfl⟩ := ofSecond.mp takenNext
    exact ⟨⟨fits, fitsNext⟩, ⟨room, roomNext⟩, both⟩
  · rintro ⟨⟨fits, fitsNext⟩, ⟨room, roomNext⟩, rfl⟩
    exact ⟨_, (firstYields state _ inside known).mpr ⟨fits, room, rfl⟩,
      ofSecond.mpr ⟨fitsNext, roomNext, both.symm⟩⟩

end ParseStep

namespace PageParser

open ParseStep PageTree

variable {parser : PageParser}

theorem yields_addTextElement {parent : Option Definition} {definition : Definition}
    (known : parser.registry.get? Definition.textTag = some definition) (text : String) :
    Yields parent (Definition.Admits parent definition ∧ definition.CountsFit [])
      [.child (textBranch definition text)] (parser.addTextElement text) := by
  rintro state last inside rfl
  rw [addTextElement_eq_ok_iff inside known, and_assoc]
  constructor
  · rintro ⟨admitted, room, complete, rfl⟩
    exact ⟨admitted, complete, room, rfl⟩
  · rintro ⟨admitted, complete, room, rfl⟩
    exact ⟨admitted, room, complete, rfl⟩

/-- Text that an element does not reject is taken in as its definition says. -/
private theorem yields_text {definition : Definition} {run : String}
    (notBlank : Text.allBlank run = false) :
    Yields (some definition) (parser.TakesText definition)
      (parser.textContent (some definition) run) (parser.processText run) := by
  have isEmpty_eq : (TextRun.trimmed run).isEmpty = false := by
    rw [TextRun.isEmpty_trimmed, notBlank]
  rintro state last inside known
  rw [processText_eq_textStep parser isEmpty_eq, known]
  cases content : definition.content with
  | reject =>
      have refused : ¬parser.TakesText definition := fun takes => takes.notRejected content
      simp [textStep, content, fail, refused]
  | ignore =>
      have takes : parser.TakesText definition := ⟨by simp [content], by simp [content]⟩
      have nothing : parser.textContent (some definition) run = [] := by
        simp [textContent, notBlank, content]
      simp only [textStep, content, nothing]
      exact ((yields_done _).of_iff (iff_of_true trivial takes)) state last inside known
  | asAttribute =>
      have takes : parser.TakesText definition := ⟨by simp [content], by simp [content]⟩
      have room := Element.hasRoom_nil (state.tree.element state.cursor.parent)
      have becomes : parser.textContent (some definition) run =
          [.text (TextRun.trimmed run)] := by
        simp [textContent, notBlank, content]
      simp only [textStep, content, becomes]
      rw [edit_eq_ok_iff]
      constructor
      · rintro ⟨_, ⟨⟩, rfl⟩
        exact ⟨takes, room, rfl⟩
      · rintro ⟨-, -, rfl⟩
        exact ⟨_, rfl, rfl⟩
  | asChild =>
      simp only [textStep, content]
      cases registered : parser.registry.get? Definition.textTag with
      | none =>
          have refused : ¬parser.TakesText definition := by
            intro takes
            obtain ⟨text, isRegistered, -⟩ := takes.asElement content
            rw [registered] at isRegistered
            cases isRegistered
          simp [addTextElement, registered, refused]
      | some text =>
          have becomes : parser.textContent (some definition) run =
              [.child (textBranch text (TextRun.trimmed run))] := by
            simp [textContent, notBlank, content, registered]
          have takes_iff : Definition.Admits (some definition) text ∧ text.CountsFit [] ↔
              parser.TakesText definition := by
            constructor
            · exact fun admitted => ⟨by simp [content], fun _ => ⟨text, registered, admitted⟩⟩
            · intro takes
              obtain ⟨_, isRegistered, admitted⟩ := takes.asElement content
              rw [registered] at isRegistered
              cases isRegistered
              exact admitted
          rw [becomes]
          exact ((yields_addTextElement registered _).of_iff takes_iff) state last inside known

/-- A run is taken in exactly when it fits and there is room for what it becomes. -/
theorem yields_processText (parent : Option Definition) (run : String) :
    Yields parent (parser.TextFits parent run) (parser.textContent parent run)
      (parser.processText run) := by
  cases blank : Text.allBlank run with
  | true =>
      have fits : parser.TextFits parent run := by simp [TextFits, blank]
      have nothing : parser.textContent parent run = [] := by simp [textContent, blank]
      rw [nothing, processText_of_blank blank]
      exact (yields_done parent).of_iff (iff_of_true trivial fits)
  | false =>
      cases parent with
      | none =>
          have refused : ¬parser.TextFits none run := by simp [TextFits, blank]
          refine (yields_of_fails ?_).of_iff (iff_of_false id refused)
          intro state last known
          simp [processText, TextRun.isEmpty_trimmed, blank, known]
      | some definition =>
          have fits_iff : parser.TakesText definition ↔ parser.TextFits (some definition) run := by
            simp [TextFits, blank]
          exact (yields_text blank).of_iff fits_iff

/-- An element is taken in exactly when its parent admits it and has room for it,
its attributes fit, its content fits, and the counts of its children fit. -/
theorem yields_elementStep {parent : Option Definition} {definition : Definition}
    {arguments : List Json} {attributes : List Markup.Attribute} {fits : Prop}
    {content : List Contribution} {step : ParseStep}
    (contentYields : Yields (some definition) fits content step) :
    Yields parent
      (Definition.Admits parent definition ∧
        (∀ written ∈ attributes, parser.AttributeFits definition written.name) ∧
        fits ∧ definition.CountsFit (Branch.childTags content))
      [.child (content.foldl Branch.take (parser.opened definition arguments attributes))]
      (parser.elementStep definition arguments attributes step) := by
  rintro state last inside rfl
  let openedBranch := parser.opened definition arguments attributes
  let filled := content.foldl Branch.take openedBranch
  have sameTag : filled.tag = definition.tag := by
    rw [Branch.tag, Branch.definition_foldl_take]
    rfl
  have childrenOf : filled.children.map Branch.tag = Branch.childTags content := by
    rw [Branch.children_foldl_take]
    rfl
  -- Content is taken in below the element added last.
  let within : ParseState := { state with
    tree := state.tree.addBranch state.cursor.parent openedBranch
    cursor := { state.cursor with parent := state.tree.size } }
  have element_eq : within.tree.element within.cursor.parent =
      openedBranch.element state.tree.size (some state.cursor.parent) :=
    element_addBranch_size inside openedBranch
  have insideWithin : within.cursor.parent < within.tree.size := by
    have grown : within.tree.size = state.tree.size + openedBranch.size :=
      size_addBranch inside openedBranch
    rw [grown, Branch.size_eq]
    exact Nat.lt_add_of_pos_right (Nat.succ_pos _)
  have ofContent := fun inner => contentYields within inner insideWithin (by rw [element_eq]; rfl)
  have received : (within.receive content).tree =
      state.tree.addBranch state.cursor.parent filled :=
    foldl_contribute_addBranch inside content openedBranch
  have complete_iff : (within.receive content).tree.validate state.tree.size = .ok () ↔
      definition.CountsFit (Branch.childTags content) := by
    rw [received, validate_addBranch_eq_ok_iff inside, childrenOf, Branch.definition_foldl_take]
    simp [openedBranch, opened, Branch.label]
  -- What the content leaves of the cursor is what was there before.
  have returned : { within.receive content with
      cursor := { (within.receive content).cursor with parent := state.cursor.parent } } =
        state.receive [.child filled] := by
    simp only [ParseState.receive, List.foldl_cons, List.foldl_nil, contribute]
    rw [← received]
    rfl
  have tags_eq : Branch.childTags [.child filled] = [definition.tag] := by
    rw [← sameTag]
    rfl
  rw [elementStep_eq_ok_iff inside, tags_eq]
  constructor
  · rintro ⟨admitted, room, attributesFit, inner, taken, complete, rfl⟩
    obtain ⟨contentFits, -, rfl⟩ := (ofContent inner).mp taken
    exact ⟨⟨admitted, attributesFit, contentFits, complete_iff.mp complete⟩, room, returned⟩
  · rintro ⟨⟨admitted, attributesFit, contentFits, countsFit⟩, room, rfl⟩
    have contentRoom : (within.tree.element within.cursor.parent).HasRoom
        (Branch.childTags content) := by
      apply Element.hasRoom_of_countsFit _ _ countsFit
      · rw [element_eq]
        rfl
      · intro tag
        rw [element_eq]
        rfl
    exact ⟨admitted, room, attributesFit, _, (ofContent _).mpr ⟨contentFits, contentRoom, rfl⟩,
      complete_iff.mpr countsFit, returned.symm⟩

end PageParser

end LivePage
