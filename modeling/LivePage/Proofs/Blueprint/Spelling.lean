import LivePage.Proofs.Blueprint.Inclusion

/-!
Contract: prefixes are a matter of spelling.

Owns:
- names that known namespaces take for one name, whatever stands in front of the colon;
- documents that differ in the spelling of such names only;
- outcomes that agree up to the spelling of an attribute in the text of an error;
- documents that differ in spelling only are read with agreeing outcomes.

Does not own: which namespaces are known, and how prefixes are declared in markup.
-/

namespace LivePage

/-! ## Names -/

/-- Two ways to spell one name: with any qualifiers that are bound to the same URI, or without a
declaration where the qualifier is the short name that its own URI is registered for. -/
inductive Namespaces.Alike (namespaces : Namespaces) : Markup.Name → Markup.Name → Prop
  | same (name : Markup.Name) : Alike namespaces name name
  | bound (qualifier qualifier' : Option String) (localName uri : String) :
      Alike namespaces ⟨qualifier, localName, .uri uri⟩ ⟨qualifier', localName, .uri uri⟩
  | declared {shortName : String} (isKnown : namespaces.contains shortName = true)
      (isRegistered : namespaces.nameForUri? (Namespaces.uriFor shortName) = some shortName)
      (qualifier : Option String) (localName : String) :
      Alike namespaces ⟨some shortName, localName, .undeclared⟩
        ⟨qualifier, localName, .uri (Namespaces.uriFor shortName)⟩
  | undeclared {shortName : String} (isKnown : namespaces.contains shortName = true)
      (isRegistered : namespaces.nameForUri? (Namespaces.uriFor shortName) = some shortName)
      (qualifier : Option String) (localName : String) :
      Alike namespaces ⟨qualifier, localName, .uri (Namespaces.uriFor shortName)⟩
        ⟨some shortName, localName, .undeclared⟩

namespace Namespaces

variable {namespaces : Namespaces}

theorem uriFor_ne_pageUri (shortName : String) : uriFor shortName ≠ pageUri := by
  intro same
  have sameLength := congrArg String.length same
  rw [uriFor, String.length_append, String.length_append] at sameLength
  have slash : "/".length = 1 := rfl
  omega

/-- A registered URI and the short name that it is registered for lead to the same name. -/
theorem resolve_declared {shortName : String} (isKnown : namespaces.contains shortName = true)
    (isRegistered : namespaces.nameForUri? (uriFor shortName) = some shortName)
    (qualifier : Option String) (localName : String) :
    namespaces.resolve ⟨qualifier, localName, .uri (uriFor shortName)⟩ =
      namespaces.resolve ⟨some shortName, localName, .undeclared⟩ := by
  simp only [resolve]
  rw [if_neg (uriFor_ne_pageUri shortName), isRegistered, if_pos isKnown]

theorem Alike.resolve_eq {name name' : Markup.Name} (alike : namespaces.Alike name name') :
    namespaces.resolve name' = namespaces.resolve name := by
  cases alike with
  | same => rfl
  | bound qualifier qualifier' localName uri => rfl
  | declared isKnown isRegistered qualifier localName =>
      exact resolve_declared isKnown isRegistered qualifier localName
  | undeclared isKnown isRegistered qualifier localName =>
      exact (resolve_declared isKnown isRegistered qualifier localName).symm

theorem Alike.localName_eq {name name' : Markup.Name} (alike : namespaces.Alike name name') :
    name'.localName = name.localName := by
  cases alike <;> rfl

end Namespaces

/-! ## Documents -/

namespace Markup

/-- An attribute with its name spelled otherwise. -/
structure Attribute.Respelled (keys : Name → Name → Prop) (written written' : Attribute) :
    Prop where
  name : keys written.name written'.name
  value : written'.value = written.value

mutual

/-- A node with the names of elements and attributes in it spelled otherwise. -/
inductive Node.Respelled (tags keys : Name → Name → Prop) : Node → Node → Prop
  | same (node : Node) : Node.Respelled tags keys node node
  | element {name name' : Name} {attributes attributes' : List Attribute}
      {children children' : List Node} (sameName : tags name name')
      (sameAttributes : List.Forall₂ (Attribute.Respelled keys) attributes attributes')
      (sameChildren : Node.AllRespelled tags keys children children') :
      Node.Respelled tags keys (.element name attributes children)
        (.element name' attributes' children')

inductive Node.AllRespelled (tags keys : Name → Name → Prop) : List Node → List Node → Prop
  | nil : Node.AllRespelled tags keys [] []
  | cons {node node' : Node} {rest rest' : List Node}
      (first : Node.Respelled tags keys node node')
      (others : Node.AllRespelled tags keys rest rest') :
      Node.AllRespelled tags keys (node :: rest) (node' :: rest')

end

end Markup

/-! ## Outcomes -/

/-- The same error; only the name of an attribute in its text may be spelled otherwise. -/
inductive ParseError.Respelled (keys : Markup.Name → Markup.Name → Prop) :
    ParseError → ParseError → Prop
  | same (error : ParseError) : Respelled keys error error
  | unresolvable {name name' : Markup.Name} (sameName : keys name name') :
      Respelled keys (.unresolvableAttribute name.qualified)
        (.unresolvableAttribute name'.qualified)
  | ofRoot {name name' : Markup.Name} (sameName : keys name name') :
      Respelled keys (.unknownAttribute Definition.rootTag name.qualified)
        (.unknownAttribute Definition.rootTag name'.qualified)

/-- The same value, or the same error up to the spelling of an attribute. -/
inductive OutcomesAgree {α : Type} (keys : Markup.Name → Markup.Name → Prop) :
    Except ParseError α → Except ParseError α → Prop
  | ok (value : α) : OutcomesAgree keys (.ok value) (.ok value)
  | error {error error' : ParseError} (sameError : error.Respelled keys error') :
      OutcomesAgree keys (.error error) (.error error')

theorem OutcomesAgree.refl {α : Type} {keys : Markup.Name → Markup.Name → Prop}
    (outcome : Except ParseError α) : OutcomesAgree keys outcome outcome := by
  cases outcome with
  | ok value => exact .ok value
  | error error => exact .error (.same error)

theorem OutcomesAgree.map {α β : Type} {keys : Markup.Name → Markup.Name → Prop}
    {outcome outcome' : Except ParseError α} (agree : OutcomesAgree keys outcome outcome')
    (change : α → β) : OutcomesAgree keys (outcome.map change) (outcome'.map change) := by
  cases agree with
  | ok value => exact .ok (change value)
  | error sameError => exact .error sameError

/-- Outcomes are equal where attributes keep their qualifiers. -/
theorem OutcomesAgree.eq {α : Type} {keys : Markup.Name → Markup.Name → Prop}
    {outcome outcome' : Except ParseError α} (agree : OutcomesAgree keys outcome outcome')
    (sameText : ∀ {name name'}, keys name name' → name'.qualified = name.qualified) :
    outcome' = outcome := by
  cases agree with
  | ok value => rfl
  | error sameError =>
      cases sameError with
      | same error => rfl
      | unresolvable sameName => rw [sameText sameName]
      | ofRoot sameName => rw [sameText sameName]

namespace ParseStep

/-- Steps that lead to the same state with agreeing outcomes. -/
def Agrees (keys : Markup.Name → Markup.Name → Prop) (first second : ParseStep) : Prop :=
  ∀ state, (second state).1 = (first state).1 ∧
    OutcomesAgree keys (first state).2 (second state).2

section Agreeing

variable {keys : Markup.Name → Markup.Name → Prop}
  {first first' second second' : ParseStep}

theorem agrees_same (step : ParseStep) : Agrees keys step step :=
  fun state => ⟨rfl, .refl (step state).2⟩

theorem agrees_fail {error error' : ParseError} (sameError : error.Respelled keys error') :
    Agrees keys (fail error) (fail error') :=
  fun _ => ⟨rfl, .error sameError⟩

theorem agrees_edit {change change' : PageTree → Except ParseError PageTree}
    (each : ∀ tree, OutcomesAgree keys (change tree) (change' tree)) :
    Agrees keys (edit change) (edit change') := by
  intro state
  have agree := each state.tree
  unfold edit
  generalize change state.tree = outcome at agree ⊢
  generalize change' state.tree = outcome' at agree ⊢
  cases agree with
  | ok tree => exact ⟨rfl, .ok ()⟩
  | error sameError => exact ⟨rfl, .error sameError⟩

theorem Agrees.andThen (firstAgrees : Agrees keys first first')
    (secondAgrees : Agrees keys second second') :
    Agrees keys (first.andThen second) (first'.andThen second') := by
  intro state
  obtain ⟨sameState, agree⟩ := firstAgrees state
  unfold ParseStep.andThen
  generalize first state = result at sameState agree ⊢
  generalize first' state = result' at sameState agree ⊢
  obtain ⟨next, outcome⟩ := result
  obtain ⟨next', outcome'⟩ := result'
  obtain rfl : next' = next := sameState
  cases agree with
  | ok value => exact secondAgrees next'
  | error sameError => exact ⟨rfl, .error sameError⟩

theorem Agrees.movedBy (agrees : Agrees keys first first') (detour : Detour) :
    Agrees keys (ParseStep.movedBy detour first) (ParseStep.movedBy detour first') := by
  intro state
  obtain ⟨sameState, agree⟩ := agrees { state with cursor := detour.go state.cursor }
  have sameReturn := congrArg (fun next : ParseState =>
    { next with cursor := detour.back state.cursor next.cursor }) sameState
  exact ⟨sameReturn, agree⟩

end Agreeing

end ParseStep

/-! ## Reading -/

namespace PageParser

open ParseStep

section Reading

variable {parser : PageParser} {tags keys : Markup.Name → Markup.Name → Prop}

theorem elementDefinition_eq_of_alike {name name' : Markup.Name}
    (alike : parser.tagNamespaces.Alike name name') :
    parser.elementDefinition name' = parser.elementDefinition name := by
  rw [elementDefinition, elementDefinition, alike.resolve_eq]

/-- The name under which an attribute is stored does not tell how it was spelled. -/
theorem attributeName_agree {definition : Definition} {name name' : Markup.Name}
    (alike : parser.attributeNamespaces.Alike name name') (sameName : keys name name') :
    OutcomesAgree keys (parser.attributeName definition name)
      (parser.attributeName definition name') := by
  rw [attributeName, attributeName, alike.resolve_eq]
  cases parser.attributeNamespaces.resolve name with
  | unresolvable => exact .error (.unresolvable sameName)
  | plain localName => exact .refl _
  | namespaced shortName localName => exact .refl _

section

variable (attributesAlike : ∀ {name name'}, keys name name' →
  parser.attributeNamespaces.Alike name name')

include attributesAlike

theorem agrees_applyAttributes (definition : Definition) (number : Nat)
    {attributes attributes' : List Markup.Attribute}
    (sameAttributes : List.Forall₂ (Markup.Attribute.Respelled keys) attributes attributes') :
    Agrees keys (parser.applyAttributes definition number attributes)
      (parser.applyAttributes definition number attributes') := by
  induction sameAttributes with
  | nil => exact agrees_same done
  | @cons written written' rest rest' respelled _ inductionHypothesis =>
      refine Agrees.andThen (agrees_edit (fun tree => ?_)) inductionHypothesis
      rw [respelled.value]
      exact (attributeName_agree (attributesAlike respelled.name) respelled.name).map _

theorem agrees_openElement (definition : Definition) (arguments : List Json)
    {attributes attributes' : List Markup.Attribute}
    (sameAttributes : List.Forall₂ (Markup.Attribute.Respelled keys) attributes attributes') :
    Agrees keys (parser.openElement definition arguments attributes)
      (parser.openElement definition arguments attributes') :=
  fun state =>
    ((agrees_same (edit (addElement state.cursor.parent definition))).andThen
      ((agrees_same (edit (fun tree => .ok (arguments.foldl
        (fun tree argument => tree.pushArgument state.tree.size argument) tree)))).andThen
        (agrees_applyAttributes attributesAlike definition state.tree.size sameAttributes))) state

theorem agrees_elementStep (definition : Definition) (arguments : List Json)
    {attributes attributes' : List Markup.Attribute} {content content' : ParseStep}
    (sameAttributes : List.Forall₂ (Markup.Attribute.Respelled keys) attributes attributes')
    (sameContent : Agrees keys content content') :
    Agrees keys (parser.elementStep definition arguments attributes content)
      (parser.elementStep definition arguments attributes' content') :=
  fun state =>
    ((agrees_openElement attributesAlike definition arguments sameAttributes).andThen
      ((sameContent.movedBy (.toElement state.tree.size)).andThen
        (agrees_same (check (fun tree => tree.validate state.tree.size))))) state

variable (tagsAlike : ∀ {name name'}, tags name name' → parser.tagNamespaces.Alike name name')

include tagsAlike

/-- Nodes that differ in spelling are read alike. -/
theorem agrees_reading (files : FileSystem) (graft : PageSource → ParseStep) :
    (∀ node node', Markup.Node.Respelled tags keys node node' →
      Agrees keys (parser.parseNode files graft node) (parser.parseNode files graft node')) ∧
    ∀ run nodes nodes', Markup.Node.AllRespelled tags keys nodes nodes' →
      Agrees keys (parser.parseNodes files graft run nodes)
        (parser.parseNodes files graft run nodes') := by
  -- The induction follows the reader of the first nodes.
  have byReader := parseNode.mutual_induct
    (fun node => ∀ node', Markup.Node.Respelled tags keys node node' →
      Agrees keys (parser.parseNode files graft node) (parser.parseNode files graft node'))
    (fun run nodes => ∀ nodes', Markup.Node.AllRespelled tags keys nodes nodes' →
      Agrees keys (parser.parseNodes files graft run nodes)
        (parser.parseNodes files graft run nodes'))
  refine byReader ?_ ?_ ?_ ?_ ?_ ?_
  · intro name attributes children inductionHypothesis node' respelled
    cases respelled with
    | same => exact agrees_same _
    | element sameName sameAttributes sameChildren =>
        rw [parseNode_element, parseNode_element,
          elementDefinition_eq_of_alike (tagsAlike sameName)]
        cases parser.elementDefinition name with
        | error error => exact agrees_same _
        | ok found =>
            cases found with
            | none => exact agrees_same _
            | some pair =>
                exact agrees_elementStep attributesAlike pair.1 pair.2 sameAttributes
                  (inductionHypothesis _ sameChildren)
  · intro target data node' respelled
    cases respelled with
    | same => exact agrees_same _
  · intro node notElement notInstruction node' respelled
    cases respelled with
    | same => exact agrees_same _
    | element => exact (notElement _ _ _ rfl).elim
  · intro run nodes' respelled
    cases respelled with
    | nil => exact agrees_same _
  · intro run node rest text isText inductionHypothesis nodes' respelled
    cases respelled with
    | cons first others =>
        cases first with
        | same =>
            rw [parseNodes_text isText, parseNodes_text isText]
            exact inductionHypothesis _ others
        | element => cases isText
  · intro run node rest noText ofNode ofRest nodes' respelled
    cases respelled with
    | @cons _ node' _ rest' first others =>
        have noText' : runText? node' = none := by
          cases first with
          | same => exact noText
          | element => rfl
        rw [parseNodes_node noText, parseNodes_node noText']
        exact (agrees_same _).andThen ((ofNode _ first).andThen (ofRest _ others))

theorem agrees_parseTopLevel (files : FileSystem) (graft : PageSource → ParseStep)
    {node node' : Markup.Node} (respelled : Markup.Node.Respelled tags keys node node') :
    Agrees keys (parser.parseTopLevel files graft node)
      (parser.parseTopLevel files graft node') := by
  cases respelled with
  | same => exact agrees_same _
  | element sameName sameAttributes sameChildren =>
      simp only [parseTopLevel, parseRoot, (tagsAlike sameName).resolve_eq]
      split
      · exact agrees_same _
      · cases sameAttributes with
        | nil => exact (agrees_reading attributesAlike tagsAlike files graft).2 _ _ _ sameChildren
        | cons respelled others => exact agrees_fail (.ofRoot respelled.name)

theorem agrees_parseDocument (files : FileSystem) (graft : PageSource → ParseStep)
    {document document' : Markup.Document}
    (respelled : Markup.Node.AllRespelled tags keys document.nodes document'.nodes) :
    Agrees keys (parser.parseDocument files graft document)
      (parser.parseDocument files graft document') := by
  obtain ⟨nodes⟩ := document
  obtain ⟨nodes'⟩ := document'
  dsimp only at respelled
  induction nodes generalizing nodes' with
  | nil =>
      cases respelled with
      | nil => exact agrees_same _
  | cons node rest inductionHypothesis =>
      cases respelled with
      | cons first others =>
          rw [parseDocument_cons, parseDocument_cons]
          exact (agrees_parseTopLevel attributesAlike tagsAlike files graft first).andThen
            (inductionHypothesis _ others)

end

end Reading

/-- Prefixes are only spelling. Two documents in which tags and attributes are spelled in ways
that the known namespaces take for the same names are read alike, in every state and as an import
too: pages become the same page tree, or lead to the same error but for the spelling of an
attribute in its text; and to the very same error where attributes keep their prefixes. -/
theorem spelling_makes_no_difference (parser : PageParser) (files : FileSystem)
    {tags keys : Markup.Name → Markup.Name → Prop}
    (tagsAlike : ∀ name name', tags name name' → parser.tagNamespaces.Alike name name')
    (attributesAlike : ∀ name name', keys name name' →
      parser.attributeNamespaces.Alike name name')
    {document document' : Markup.Document}
    (respelled : Markup.Node.AllRespelled tags keys document.nodes document'.nodes) :
    (∀ graft, Agrees keys (parser.parseDocument files graft document)
      (parser.parseDocument files graft document')) ∧
    ∀ source source' : PageSource, source'.url = source.url →
      source.document = .ok document → source'.document = .ok document' →
      OutcomesAgree keys ((parser.parse files source).map Blueprint.tree)
        ((parser.parse files source').map Blueprint.tree) ∧
      ((∀ name name', keys name name' → name'.qualifier = name.qualifier) →
        (parser.parse files source').map Blueprint.tree =
          (parser.parse files source).map Blueprint.tree) := by
  have agrees := fun graft => agrees_parseDocument (fun {name name'} => attributesAlike name name')
    (fun {name name'} => tagsAlike name name') files graft respelled
  refine ⟨agrees, ?_⟩
  intro source source' sameUrl isDocument isDocument'
  have sameTree : OutcomesAgree keys ((parser.parse files source).map Blueprint.tree)
      ((parser.parse files source').map Blueprint.tree) := by
    rw [parse_map_tree isDocument, parse_map_tree isDocument', sameUrl]
    obtain ⟨sameState, agree⟩ := agrees (parser.graft files importLimit) (start source.url)
    unfold treeOf
    generalize parser.parseDocument files _ document (start source.url) = result
      at sameState agree ⊢
    generalize parser.parseDocument files _ document' (start source.url) = result'
      at sameState agree ⊢
    obtain ⟨last, outcome⟩ := result
    obtain ⟨last', outcome'⟩ := result'
    obtain rfl : last' = last := sameState
    cases agree with
    | ok value => exact .ok last'.tree
    | error sameError => exact .error sameError
  refine ⟨sameTree, fun sameQualifiers => sameTree.eq (fun {name name'} sameName => ?_)⟩
  have sameLocal := (attributesAlike name name' sameName).localName_eq
  rw [Markup.Name.qualified, Markup.Name.qualified, sameQualifiers name name' sameName, sameLocal]

/-- An event of a block, with a prefix that is declared and with the short name in its place. -/
theorem click_is_spelled_in_two_ways :
    let parser := new .core
    OutcomesAgree parser.attributeNamespaces.Alike
      ((parser.parse .empty (.ofText
        "<fsp xmlns:x='http://www.fujion.org/schema/fsp/on'><div x:click='go'/></fsp>")).map
          Blueprint.tree)
      ((parser.parse .empty (.ofText "<fsp><div on:click='go'/></fsp>")).map Blueprint.tree) := by
  intro parser
  let page (name : Markup.Name) : Markup.Document :=
    ⟨[.element ⟨none, "fsp", .unbound⟩ [] [.element ⟨none, "div", .unbound⟩ [⟨name, "go"⟩] []]]⟩
  have uri_eq : Namespaces.uriFor "on" = "http://www.fujion.org/schema/fsp/on" := by decide +kernel
  have isDocument : (PageSource.ofText
      "<fsp xmlns:x='http://www.fujion.org/schema/fsp/on'><div x:click='go'/></fsp>").document =
      .ok (page ⟨some "x", "click", .uri (Namespaces.uriFor "on")⟩) := by
    rw [uri_eq]
    rfl
  have isDocument' : (PageSource.ofText "<fsp><div on:click='go'/></fsp>").document =
      .ok (page ⟨some "on", "click", .undeclared⟩) := by rfl
  have attributes_eq : parser.attributeNamespaces = Namespaces.attributes := rfl
  have sameKey : parser.attributeNamespaces.Alike
      ⟨some "x", "click", .uri (Namespaces.uriFor "on")⟩ ⟨some "on", "click", .undeclared⟩ := by
    rw [attributes_eq]
    exact .undeclared (by decide +kernel) (by decide +kernel) (some "x") "click"
  have respelled : Markup.Node.AllRespelled parser.tagNamespaces.Alike
      parser.attributeNamespaces.Alike
      (page ⟨some "x", "click", .uri (Namespaces.uriFor "on")⟩).nodes
      (page ⟨some "on", "click", .undeclared⟩).nodes :=
    .cons (.element (.same _) .nil
      (.cons (.element (.same _) (.cons ⟨sameKey, rfl⟩ .nil) .nil) .nil)) .nil
  have outcomes := (spelling_makes_no_difference parser .empty (fun _ _ => id) (fun _ _ => id)
    respelled).2
  have agree := outcomes _ _ (Eq.refl none) isDocument isDocument'
  exact agree.1

end PageParser

end LivePage
