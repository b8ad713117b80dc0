import LivePage.Proofs.Blueprint.Reading
import LivePage.Proofs.Markup.Document

/-!
Contract: which documents without instructions are pages, and which page trees they become.

Owns:
- the definition that the name of an element stands for;
- valid documents, by conditions on each element that is not dropped;
- the page tree that mirrors a document;
- a document is read exactly when it is valid, into the page tree that mirrors it.

Does not own: instructions, and which error an invalid document leads to.
-/

namespace LivePage

namespace PageParser

open ParseStep PageTree

variable (parser : PageParser)

/-! ## Names of elements -/

/-- What a name stands for: an HTML element, a known tag, or a known tag up to
the first dot of the name. -/
inductive StandsFor (name : Markup.Name) : Definition → List Json → Prop where
  | html {localName : String} {definition : Definition}
      (resolved : parser.tagNamespaces.resolve name = .namespaced Definition.htmlTag localName)
      (known : parser.registry.get? Definition.htmlTag = some definition) :
      StandsFor name definition [.str localName]
  | whole {tag : String} {definition : Definition}
      (resolved : parser.tagNamespaces.resolve name = .plain tag)
      (known : parser.registry.get? tag = some definition) :
      StandsFor name definition []
  | base {tag base qualifier : String} {definition : Definition}
      (resolved : parser.tagNamespaces.resolve name = .plain tag)
      (unknown : parser.registry.get? tag = none)
      (cut : Text.cutText? '.' tag = some (base, qualifier))
      (known : parser.registry.get? base = some definition) :
      StandsFor name definition [.str qualifier]

variable {parser}

private theorem standsFor_of_lookUp {name : Markup.Name} {tag : String} {definition : Definition}
    {arguments : List Json} (resolved : parser.tagNamespaces.resolve name = .plain tag)
    (found : parser.lookUp tag = .ok (definition, arguments)) :
    parser.StandsFor name definition arguments := by
  unfold lookUp at found
  split at found
  · next known =>
      cases found
      exact .whole resolved known
  · next unknown =>
      split at found
      · next base qualifier cut =>
          split at found
          · next known =>
              cases found
              exact .base resolved unknown cut known
          · cases found
      · cases found

theorem elementDefinition_eq_some_iff {name : Markup.Name} {definition : Definition}
    {arguments : List Json} :
    parser.elementDefinition name = .ok (some (definition, arguments)) ↔
      parser.StandsFor name definition arguments := by
  constructor
  · intro found
    unfold elementDefinition at found
    split at found
    · cases found
    · next shortName localName resolved =>
        split at found
        · next isHtml =>
            split at found
            · next known =>
                cases found
                exact .html (isHtml ▸ resolved) known
            · cases found
        · cases found
    · next tag resolved =>
        cases looked : parser.lookUp tag with
        | error error =>
            rw [looked] at found
            cases found
        | ok pair =>
            rw [looked] at found
            cases found
            exact standsFor_of_lookUp resolved looked
  · intro standsFor
    cases standsFor with
    | html resolved known => simp [elementDefinition, resolved, known]
    | whole resolved known => simp [elementDefinition, resolved, lookUp, known, Except.map]
    | base resolved unknown cut known =>
        simp [elementDefinition, resolved, lookUp, unknown, cut, known, Except.map]

/-! ## Content -/

/-- The runs of text among nodes, the first one continuing a run. Every node that
is no text ends a run, so that there may be empty ones. -/
def textRuns (run : String) : List Markup.Node → List String
  | [] => [run]
  | node :: rest =>
      match runText? node with
      | some text => textRuns (run ++ text) rest
      | none => run :: textRuns "" rest

variable (parser)

mutual

/-- What a node that is no text becomes. -/
def nodeContent : Markup.Node → List Contribution
  | .element name attributes children =>
      match parser.elementDefinition name with
      | .ok (some (definition, arguments)) =>
          [.child ((nodesContent (some definition) "" children).foldl Branch.take
            (parser.opened definition arguments attributes))]
      | _ => []
  | _ => []

/-- What nodes become below a parent of the given definition, the text at the
front continuing a run. -/
def nodesContent (parent : Option Definition) (run : String) :
    List Markup.Node → List Contribution
  | [] => parser.textContent parent run
  | node :: rest =>
      match runText? node with
      | some text => nodesContent parent (run ++ text) rest
      | none =>
          parser.textContent parent run ++ (nodeContent node ++ nodesContent parent "" rest)

end

/-- Whether a node may stand below a parent of the given definition: every element
that is not dropped has a name that stands for a definition, is admitted by its
parent, and has attributes, runs of text and children that fit, in numbers that
its definition allows. -/
inductive Fits : Option Definition → Markup.Node → Prop where
  | dropped {parent : Option Definition} {name : Markup.Name}
      {attributes : List Markup.Attribute} {children : List Markup.Node}
      (unresolvable : parser.tagNamespaces.resolve name = .unresolvable) :
      Fits parent (.element name attributes children)
  | element {parent : Option Definition} {name : Markup.Name}
      {attributes : List Markup.Attribute} {children : List Markup.Node}
      {definition : Definition} {arguments : List Json}
      (standsFor : parser.StandsFor name definition arguments)
      (admitted : Definition.Admits parent definition)
      (attributesFit : ∀ written ∈ attributes, parser.AttributeFits definition written.name)
      (textFits : ∀ run ∈ textRuns "" children, parser.TextFits (some definition) run)
      (childrenFit : ∀ child ∈ children, Fits (some definition) child)
      (countsFit : definition.CountsFit
        (Branch.childTags (parser.nodesContent (some definition) "" children))) :
      Fits parent (.element name attributes children)
  | other {parent : Option Definition} {node : Markup.Node}
      (notElement : ∀ name attributes children, node ≠ .element name attributes children) :
      Fits parent node

/-- Whether nodes may be the content of a parent of the given definition, the text
at the front continuing a run. -/
structure AllFit (parent : Option Definition) (run : String) (nodes : List Markup.Node) :
    Prop where
  text : ∀ text ∈ textRuns run nodes, parser.TextFits parent text
  nodes : ∀ node ∈ nodes, parser.Fits parent node

variable {parser}

theorem fits_element_iff {parent : Option Definition} {name : Markup.Name}
    {attributes : List Markup.Attribute} {children : List Markup.Node} {definition : Definition}
    {arguments : List Json} (standsFor : parser.StandsFor name definition arguments) :
    parser.Fits parent (.element name attributes children) ↔
      Definition.Admits parent definition ∧
        (∀ written ∈ attributes, parser.AttributeFits definition written.name) ∧
        parser.AllFit (some definition) "" children ∧
        definition.CountsFit
          (Branch.childTags (parser.nodesContent (some definition) "" children)) := by
  have known := elementDefinition_eq_some_iff.mpr standsFor
  constructor
  · intro fits
    cases fits with
    | dropped unresolvable =>
        rw [elementDefinition_eq_none_iff.mpr unresolvable] at known
        cases known
    | other notElement => exact (notElement _ _ _ rfl).elim
    | element standsFor' admitted attributesFit textFits childrenFit countsFit =>
        rw [elementDefinition_eq_some_iff.mpr standsFor'] at known
        cases known
        exact ⟨admitted, attributesFit, ⟨textFits, childrenFit⟩, countsFit⟩
  · rintro ⟨admitted, attributesFit, contentFits, countsFit⟩
    exact .element standsFor admitted attributesFit contentFits.text contentFits.nodes countsFit

theorem not_fits_of_unknown {parent : Option Definition} {name : Markup.Name}
    {attributes : List Markup.Attribute} {children : List Markup.Node} {error : ParseError}
    (unknown : parser.elementDefinition name = .error error) :
    ¬parser.Fits parent (.element name attributes children) := by
  intro fits
  cases fits with
  | dropped unresolvable =>
      rw [elementDefinition_eq_none_iff.mpr unresolvable] at unknown
      cases unknown
  | element standsFor =>
      rw [elementDefinition_eq_some_iff.mpr standsFor] at unknown
      cases unknown
  | other notElement => exact (notElement _ _ _ rfl).elim

theorem allFit_text {parent : Option Definition} {run text : String} {node : Markup.Node}
    {rest : List Markup.Node} (isText : runText? node = some text) :
    parser.AllFit parent (run ++ text) rest ↔ parser.AllFit parent run (node :: rest) := by
  have notElement : ∀ name attributes children, node ≠ .element name attributes children := by
    rintro name attributes children rfl
    cases isText
  have runs_eq : textRuns run (node :: rest) = textRuns (run ++ text) rest := by
    rw [textRuns, isText]
  constructor
  · rintro ⟨textFits, nodesFit⟩
    exact ⟨runs_eq ▸ textFits, List.forall_mem_cons.mpr ⟨.other notElement, nodesFit⟩⟩
  · rintro ⟨textFits, nodesFit⟩
    exact ⟨runs_eq ▸ textFits, (List.forall_mem_cons.mp nodesFit).2⟩

theorem allFit_node {parent : Option Definition} {run : String} {node : Markup.Node}
    {rest : List Markup.Node} (noText : runText? node = none) :
    parser.TextFits parent run ∧ parser.Fits parent node ∧ parser.AllFit parent "" rest ↔
      parser.AllFit parent run (node :: rest) := by
  have runs_eq : textRuns run (node :: rest) = run :: textRuns "" rest := by
    rw [textRuns, noText]
  constructor
  · rintro ⟨runFits, nodeFits, restFit⟩
    refine ⟨?_, List.forall_mem_cons.mpr ⟨nodeFits, restFit.nodes⟩⟩
    rw [runs_eq]
    exact List.forall_mem_cons.mpr ⟨runFits, restFit.text⟩
  · rintro ⟨textFits, nodesFit⟩
    rw [runs_eq] at textFits
    obtain ⟨runFits, restFits⟩ := List.forall_mem_cons.mp textFits
    obtain ⟨nodeFits, restFit⟩ := List.forall_mem_cons.mp nodesFit
    exact ⟨runFits, nodeFits, restFits, restFit⟩

/-! ## Reading -/

section Reading

variable {files : FileSystem} {graft : PageSource → ParseStep}

/-- A node without instructions is taken in exactly when it fits, and so are nodes
one after another. -/
private theorem reading_yields :
    (∀ node, instructionsOf (fun _ => true) node = [] → ∀ parent,
      Yields parent (parser.Fits parent node) (parser.nodeContent node)
        (parser.parseNode files graft node)) ∧
    ∀ run nodes, instructionsOfAll (fun _ => true) nodes = [] → ∀ parent,
      Yields parent (parser.AllFit parent run nodes) (parser.nodesContent parent run nodes)
        (parser.parseNodes files graft run nodes) := by
  -- The cases are those of the readers: three for a node, three for a list.
  refine parseNode.mutual_induct _ _ ?_ ?_ ?_ ?_ ?_ ?_
  · intro name attributes children inductionHypothesis noInstructions parent
    rw [parseNode_element, nodeContent]
    cases known : parser.elementDefinition name with
    | error error =>
        refine (yields_of_fails ?_).of_iff (iff_of_false id (not_fits_of_unknown known))
        simp [fail]
    | ok found =>
        cases found with
        | none =>
            have fits : parser.Fits parent (.element name attributes children) :=
              .dropped (elementDefinition_eq_none_iff.mp known)
            exact (yields_done parent).of_iff (iff_of_true trivial fits)
        | some pair =>
            obtain ⟨definition, arguments⟩ := pair
            rw [instructionsOf, if_pos rfl] at noInstructions
            have ofContent := inductionHypothesis noInstructions (some definition)
            exact (yields_elementStep ofContent).of_iff
              (fits_element_iff (elementDefinition_eq_some_iff.mp known)).symm
  · intro target data hasInstruction
    cases hasInstruction
  · intro node notElement notInstruction _ parent
    have isDone : parser.parseNode files graft node = done := by
      rw [parseNode] <;> assumption
    have nothing : parser.nodeContent node = [] := by
      rw [nodeContent]
      assumption
    rw [isDone, nothing]
    exact (yields_done parent).of_iff (iff_of_true trivial (.other notElement))
  · intro run _ parent
    have fits_iff : parser.TextFits parent run ↔ parser.AllFit parent run [] := by
      constructor
      · exact fun fits => ⟨by simpa [textRuns] using fits, by simp⟩
      · exact fun fits => fits.text run (by simp [textRuns])
    exact (yields_processText parent run).of_iff fits_iff
  · intro run node rest text isText inductionHypothesis noInstructions parent
    rw [parseNodes_text isText, nodesContent, isText]
    have restHasNone := (List.append_eq_nil_iff.mp noInstructions).2
    exact (inductionHypothesis restHasNone parent).of_iff (allFit_text isText)
  · intro run node rest noText ofNode ofRest noInstructions parent
    rw [parseNodes_node noText, nodesContent, noText]
    obtain ⟨nodeHasNone, restHasNone⟩ := List.append_eq_nil_iff.mp noInstructions
    have afterText := (ofNode nodeHasNone parent).andThen (ofRest restHasNone parent)
    exact ((yields_processText parent run).andThen afterText).of_iff (allFit_node noText)

theorem yields_parseNodes {nodes : List Markup.Node}
    (noInstructions : instructionsOfAll (fun _ => true) nodes = []) (parent : Option Definition)
    (run : String) :
    Yields parent (parser.AllFit parent run nodes) (parser.nodesContent parent run nodes)
      (parser.parseNodes files graft run nodes) :=
  reading_yields.2 run nodes noInstructions parent

/-! ## Documents -/

/-- Beside its root, a document may have text in the form of blank CDATA only. -/
private theorem yields_aside {nodes : List Markup.Node}
    (aside : ∀ node ∈ nodes, node.standsAside = true)
    (noInstructions : instructionsOfAll (fun _ => true) nodes = []) :
    Yields none (∀ text, .cdata text ∈ nodes → Text.allBlank text = true) []
      (parser.parseDocument files graft ⟨nodes⟩) := by
  induction nodes with
  | nil => exact (yields_done none).of_iff (iff_of_true trivial (by simp))
  | cons head rest inductionHypothesis =>
      obtain ⟨headHasNone, restHasNone⟩ := List.append_eq_nil_iff.mp noInstructions
      have ofRest := inductionHypothesis (fun node member => aside node (by simp [member]))
        restHasNone
      rw [parseDocument_cons]
      cases head with
      | element name attributes children => cases aside _ (List.mem_cons_self ..)
      | text text => cases aside _ (List.mem_cons_self ..)
      | instruction target data => cases headHasNone
      | comment text => exact ofRest.of_iff (by simp)
      | doctype text => exact ofRest.of_iff (by simp)
      | cdata text =>
          simp only [parseTopLevel]
          cases blank : Text.allBlank text with
          | true => exact ofRest.of_iff (by simp [blank])
          | false => exact (yields_of_fails (by simp [fail, andThen])).of_iff (by simp [blank])

private theorem yields_root (name : Markup.Name) (attributes : List Markup.Attribute)
    {children : List Markup.Node}
    (noInstructions : instructionsOfAll (fun _ => true) children = []) :
    Yields none
      (parser.tagNamespaces.resolve name = .plain Definition.rootTag ∧ attributes = [] ∧
        parser.AllFit none "" children)
      (parser.nodesContent none "" children)
      (parser.parseTopLevel files graft (.element name attributes children)) := by
  simp only [parseTopLevel, parseRoot]
  by_cases isRoot : parser.tagNamespaces.resolve name = .plain Definition.rootTag
  · rw [if_neg (by simp [isRoot])]
    cases attributes with
    | cons written rest => exact (yields_of_fails (by simp [fail])).of_iff (by simp)
    | nil => exact (yields_parseNodes noInstructions none "").of_iff (by simp [isRoot])
  · rw [if_pos isRoot]
    exact (yields_of_fails (by simp [fail])).of_iff (by simp [isRoot])

end Reading

variable (parser)

/-- Whether a document is a page: its root goes by the tag of roots and has no
attributes, the content of the root fits below the root of a page tree, and CDATA
beside the root is blank. -/
def Valid (document : Markup.Document) : Prop :=
  ∃ name children, document.root? = some (name, [], children) ∧
    parser.tagNamespaces.resolve name = .plain Definition.rootTag ∧
    parser.AllFit none "" children ∧
    ∀ text, .cdata text ∈ document.nodes → Text.allBlank text = true

variable {parser}

/-- A document without instructions, given by its root and the nodes beside it, is
taken in exactly when it is valid. -/
theorem yields_document {files : FileSystem} {graft : PageSource → ParseStep}
    {before after : List Markup.Node} {name : Markup.Name} {attributes : List Markup.Attribute}
    {children : List Markup.Node} (asideBefore : ∀ node ∈ before, node.standsAside = true)
    (asideAfter : ∀ node ∈ after, node.standsAside = true)
    (noInstructions : instructionsOfAll (fun _ => true)
      (before ++ .element name attributes children :: after) = []) :
    Yields none (parser.Valid ⟨before ++ .element name attributes children :: after⟩)
      (parser.nodesContent none "" children)
      (parser.parseDocument files graft
        ⟨before ++ .element name attributes children :: after⟩) := by
  rw [instructionsOfAll_append, List.append_eq_nil_iff, instructionsOfAll, instructionsOf,
    if_pos rfl, List.append_eq_nil_iff] at noInstructions
  obtain ⟨beforeHasNone, rootHasNone, afterHasNone⟩ := noInstructions
  have content_eq : parser.nodesContent none "" children =
      [] ++ (parser.nodesContent none "" children ++ []) := by
    simp
  rw [parseDocument_append, parseDocument_cons, content_eq]
  refine ((yields_aside asideBefore beforeHasNone).andThen
    ((yields_root name attributes rootHasNone).andThen
      (yields_aside asideAfter afterHasNone))).of_iff ?_
  have root_eq : Markup.Document.root? ⟨before ++ .element name attributes children :: after⟩ =
      some (name, attributes, children) :=
    Markup.Document.root?_eq_some asideBefore
  constructor
  · rintro ⟨blankBefore, ⟨isRoot, rfl, contentFits⟩, blankAfter⟩
    refine ⟨name, children, root_eq, isRoot, contentFits, ?_⟩
    intro text member
    rcases List.mem_append.mp member with inBefore | inRest
    · exact blankBefore text inBefore
    · exact blankAfter text (by simpa using inRest)
  · rintro ⟨rootName, rootChildren, isRootElement, isRoot, contentFits, blank⟩
    rw [root_eq] at isRootElement
    cases isRootElement
    exact ⟨fun text member => blank text (by simp [member]), ⟨isRoot, rfl, contentFits⟩,
      fun text member => blank text (by simp [member])⟩

end PageParser

end LivePage
