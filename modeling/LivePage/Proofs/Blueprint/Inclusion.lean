import LivePage.Proofs.Blueprint.Agreement
import LivePage.Proofs.Blueprint.Reading
import LivePage.Proofs.Markup.Document

/-!
Contract: an import does what the imported nodes would do in its place.

Owns:
- lists of nodes that can be put together without joining runs of text;
- the nodes that an included document stands for;
- one instruction replaced by nodes, at any depth of a document;
- the agreement of an import with the nodes of the imported document.

Does not own: imports inside imported documents.
-/

namespace LivePage

open ParseStep

theorem Text.allBlank_append (left right : String) :
    Text.allBlank (left ++ right) = (Text.allBlank left && Text.allBlank right) := by
  simp [Text.allBlank]

namespace PageParser

/-! ## Runs of text at the ends -/

/-- The text in front of the first node that is no text. -/
def leadingRun : List Markup.Node → String
  | [] => ""
  | node :: rest =>
      match runText? node with
      | some text => text ++ leadingRun rest
      | none => ""

/-- The text behind the last node that is no text; a list of text alone continues
the given run. -/
def trailingRun (run : String) : List Markup.Node → String
  | [] => run
  | node :: rest =>
      match runText? node with
      | some text => trailingRun (run ++ text) rest
      | none => trailingRun "" rest

theorem leadingRun_append_blank {front back : List Markup.Node}
    (frontBlank : Text.allBlank (leadingRun front) = true)
    (backBlank : Text.allBlank (leadingRun back) = true) :
    Text.allBlank (leadingRun (front ++ back)) = true := by
  induction front with
  | nil => exact backBlank
  | cons head rest inductionHypothesis =>
      rw [List.cons_append, leadingRun]
      rw [leadingRun] at frontBlank
      cases isText : runText? head with
      | none => rfl
      | some text =>
          rw [isText] at frontBlank
          simp only [Text.allBlank_append, Bool.and_eq_true] at frontBlank ⊢
          exact ⟨frontBlank.1, inductionHypothesis frontBlank.2⟩

theorem trailingRun_append (run : String) (front back : List Markup.Node) :
    trailingRun run (front ++ back) = trailingRun (trailingRun run front) back := by
  induction front generalizing run with
  | nil => rfl
  | cons head rest inductionHypothesis =>
      rw [List.cons_append, trailingRun, trailingRun]
      cases runText? head <;> exact inductionHypothesis _

section Joining

variable {parser : PageParser} {files : FileSystem} {graft : PageSource → ParseStep}

/-- Which blank text stands in front of blank text makes no difference. -/
theorem parseNodes_of_blank {run other : String} {nodes : List Markup.Node}
    (runBlank : Text.allBlank run = true) (otherBlank : Text.allBlank other = true)
    (leadingBlank : Text.allBlank (leadingRun nodes) = true) :
    parser.parseNodes files graft run nodes = parser.parseNodes files graft other nodes := by
  induction nodes generalizing run other with
  | nil =>
      rw [parseNodes_nil, parseNodes_nil, processText_of_blank runBlank,
        processText_of_blank otherBlank]
  | cons head rest inductionHypothesis =>
      rw [leadingRun] at leadingBlank
      cases isText : runText? head with
      | none =>
          rw [parseNodes_node isText, parseNodes_node isText, processText_of_blank runBlank,
            processText_of_blank otherBlank]
      | some text =>
          rw [isText] at leadingBlank
          simp only [Text.allBlank_append, Bool.and_eq_true] at leadingBlank
          rw [parseNodes_text isText, parseNodes_text isText]
          apply inductionHypothesis _ _ leadingBlank.2
          · rw [Text.allBlank_append, runBlank, leadingBlank.1]
            rfl
          · rw [Text.allBlank_append, otherBlank, leadingBlank.1]
            rfl

/-- Nodes are read part by part if no text but blank text meets where the parts do. -/
theorem parseNodes_append_of_blank {run : String} {front back : List Markup.Node}
    (trailingBlank : Text.allBlank (trailingRun run front) = true)
    (leadingBlank : Text.allBlank (leadingRun back) = true) :
    parser.parseNodes files graft run (front ++ back) =
      (parser.parseNodes files graft run front).andThen
        (parser.parseNodes files graft "" back) := by
  induction front generalizing run with
  | nil =>
      have runBlank : Text.allBlank run = true := trailingBlank
      rw [List.nil_append, parseNodes_nil, processText_of_blank runBlank, done_andThen]
      exact parseNodes_of_blank runBlank rfl leadingBlank
  | cons head rest inductionHypothesis =>
      rw [trailingRun] at trailingBlank
      rw [List.cons_append]
      cases isText : runText? head with
      | some text =>
          rw [isText] at trailingBlank
          rw [parseNodes_text isText, parseNodes_text isText, inductionHypothesis trailingBlank]
      | none =>
          rw [isText] at trailingBlank
          rw [parseNodes_node isText, parseNodes_node isText, inductionHypothesis trailingBlank,
            andThen_assoc, andThen_assoc]

end Joining

/-! ## Included documents -/

/-- What a node at top level adds to the place of inclusion. -/
def inlinedNode : Markup.Node → List Markup.Node
  | .element _ _ children => children
  | .instruction target data => [.instruction target data]
  | _ => []

/-- The nodes that a document stands for where it is included: the instructions at
top level and the children of the root, in document order. -/
def inlined (document : Markup.Document) : List Markup.Node :=
  document.nodes.flatMap inlinedNode

/-- Whether a document can be included as it stands: its root, with the given
content, is bare and goes by the tag of roots, its only instructions declare tag
libraries, there is no CDATA beside the root, and only blank text at both ends of
the content. -/
structure Includable (parser : PageParser) (document : Markup.Document)
    (content : List Markup.Node) : Prop where
  bareRoot : ∃ name, document.root? = some (name, [], content) ∧
    parser.tagNamespaces.resolve name = .plain Definition.rootTag
  onlyLibraries : ∀ instruction ∈ instructionsOfAll (fun _ => true) document.nodes,
    instruction.1 = Instruction.taglibTarget
  noCdata : ∀ text, .cdata text ∉ document.nodes
  blankFront : Text.allBlank (leadingRun content) = true
  blankBack : Text.allBlank (trailingRun "" content) = true

section Aside

variable {parser : PageParser} {files : FileSystem} {graft : PageSource → ParseStep}
  {nodes : List Markup.Node}

/-- Beside its root, a document without CDATA is its instructions. -/
theorem inlined_aside (aside : ∀ node ∈ nodes, node.standsAside = true)
    (noCdata : ∀ text, .cdata text ∉ nodes) :
    parser.parseDocument files graft ⟨nodes⟩ =
        parser.parseNodes files graft "" (inlined ⟨nodes⟩) ∧
      leadingRun (inlined ⟨nodes⟩) = "" ∧
      ∀ run, trailingRun run (inlined ⟨nodes⟩) = run ∨ trailingRun run (inlined ⟨nodes⟩) = "" := by
  induction nodes with
  | nil => exact ⟨(processText_of_blank rfl).symm, rfl, fun _ => Or.inl rfl⟩
  | cons head rest inductionHypothesis =>
      obtain ⟨reads, leading, trailing⟩ := inductionHypothesis
        (fun node member => aside node (List.mem_cons_of_mem _ member))
        (fun text member => noCdata text (List.mem_cons_of_mem _ member))
      cases head with
      | element name attributes children => cases aside _ (List.mem_cons_self ..)
      | text text => cases aside _ (List.mem_cons_self ..)
      | cdata text => exact (noCdata text (List.mem_cons_self ..)).elim
      | comment text => exact ⟨reads, leading, trailing⟩
      | doctype text => exact ⟨reads, leading, trailing⟩
      | instruction target data =>
          refine ⟨?_, rfl, fun _ => Or.inr ((trailing "").elim id id)⟩
          have unfolded : inlined ⟨.instruction target data :: rest⟩ =
              .instruction target data :: inlined ⟨rest⟩ := rfl
          rw [parseDocument_cons, reads, unfolded, parseNodes_node rfl, processText_of_blank rfl,
            done_andThen]
          rfl

end Aside

section Including

variable {parser : PageParser} {files : FileSystem} {graft : PageSource → ParseStep}
  {document : Markup.Document} {content : List Markup.Node}

private theorem inlined_append (front back : List Markup.Node) :
    inlined ⟨front ++ back⟩ = inlined ⟨front⟩ ++ inlined ⟨back⟩ := by
  simp [inlined]

/-- A document that can be included is taken in like the nodes it stands for, and
these have blank text at both ends. -/
theorem parseDocument_eq_inlined (includable : parser.Includable document content)
    {before after : List Markup.Node} {name : Markup.Name} {attributes : List Markup.Attribute}
    {children : List Markup.Node}
    (shape : document = ⟨before ++ .element name attributes children :: after⟩)
    (asideBefore : ∀ node ∈ before, node.standsAside = true)
    (asideAfter : ∀ node ∈ after, node.standsAside = true) :
    parser.parseDocument files graft document =
        parser.parseNodes files graft "" (inlined document) ∧
      Text.allBlank (leadingRun (inlined document)) = true ∧
      Text.allBlank (trailingRun "" (inlined document)) = true := by
  subst shape
  obtain ⟨rootName, isRoot, resolved⟩ := includable.bareRoot
  rw [Markup.Document.root?_eq_some asideBefore] at isRoot
  cases isRoot
  have noCdata := includable.noCdata
  simp only [List.mem_append, List.mem_cons, not_or] at noCdata
  obtain ⟨readsBefore, leadingBefore, trailingBefore⟩ :=
    @inlined_aside parser files graft before asideBefore (fun text => (noCdata text).1)
  obtain ⟨readsAfter, leadingAfter, trailingAfter⟩ :=
    @inlined_aside parser files graft after asideAfter (fun text => (noCdata text).2.2)
  have inlined_eq : inlined ⟨before ++ .element name [] content :: after⟩ =
      inlined ⟨before⟩ ++ (content ++ inlined ⟨after⟩) := by
    rw [inlined_append]
    rfl
  have blankAfter : Text.allBlank (leadingRun (inlined ⟨after⟩)) = true := by
    rw [leadingAfter]
    rfl
  have blankBefore : Text.allBlank (leadingRun (inlined ⟨before⟩)) = true := by
    rw [leadingBefore]
    rfl
  have blankRest := leadingRun_append_blank includable.blankFront blankAfter
  have noneBefore : trailingRun "" (inlined ⟨before⟩) = "" := (trailingBefore "").elim id id
  rw [inlined_eq]
  refine ⟨?_, leadingRun_append_blank blankBefore blankRest, ?_⟩
  · rw [parseDocument_append, parseDocument_cons, readsBefore, readsAfter,
      parseTopLevel_root resolved,
      parseNodes_append_of_blank (by rw [noneBefore]; rfl) blankRest,
      parseNodes_append_of_blank includable.blankBack blankAfter]
  · rw [trailingRun_append, noneBefore, trailingRun_append]
    rcases trailingAfter (trailingRun "" content) with same | none
    · rw [same]
      exact includable.blankBack
    · rw [none]
      rfl

end Including

/-! ## Inclusion at a place -/

/-- One node replaced by others, between text that is blank, in a list of nodes or
in the content of an element at any depth. -/
inductive Spliced (node : Markup.Node) (replacement : List Markup.Node) :
    List Markup.Node → List Markup.Node → Prop where
  | here {before after : List Markup.Node}
      (blankBefore : Text.allBlank (trailingRun "" before) = true)
      (blankAfter : Text.allBlank (leadingRun after) = true) :
      Spliced node replacement (before ++ node :: after) (before ++ (replacement ++ after))
  | inside {before after children children' : List Markup.Node} {name : Markup.Name}
      {attributes : List Markup.Attribute} (spliced : Spliced node replacement children children') :
      Spliced node replacement (before ++ .element name attributes children :: after)
        (before ++ .element name attributes children' :: after)

section Splicing

variable {parser : PageParser} {files : FileSystem} {graft : PageSource → ParseStep}

/-- A replacement that agrees with a node also agrees with it in its place. -/
theorem agree_of_spliced {near : Cursor → Cursor → Prop} (matching : Cursor.Matching near)
    {node : Markup.Node} {replacement : List Markup.Node}
    (noText : runText? node = none)
    (blankFront : Text.allBlank (leadingRun replacement) = true)
    (blankBack : Text.allBlank (trailingRun "" replacement) = true)
    (agree : Agree near (parser.parseNode files graft node)
      (parser.parseNodes files graft "" replacement))
    (others : ∀ target data, Agree near (parser.processInstruction files graft target data)
      (parser.processInstruction files graft target data))
    {nodes nodes' : List Markup.Node} (spliced : Spliced node replacement nodes nodes') :
    Agree near (parser.parseNodes files graft "" nodes)
      (parser.parseNodes files graft "" nodes') := by
  have compatible := @compatible_agree parser _ matching
  have same : ∀ nodes, Agree near (parser.parseNodes files graft "" nodes)
      (parser.parseNodes files graft "" nodes) :=
    fun nodes => parseNodes_related compatible (fun _ _ => others _ _) ""
  induction spliced with
  | here blankBefore blankAfter =>
      rw [parseNodes_append_cons noText, parseNodes_append_of_blank blankBefore
        (leadingRun_append_blank blankFront blankAfter),
        parseNodes_append_of_blank blankBack blankAfter]
      exact (same _).andThen (agree.andThen (same _))
  | inside spliced inductionHypothesis =>
      rw [parseNodes_append_cons rfl, parseNodes_append_cons rfl]
      refine (same _).andThen (Agree.andThen ?_ (same _))
      rw [parseNode_element, parseNode_element]
      split
      · exact compatible.fail _
      · exact compatible.done
      · exact compatible.element _ _ _ inductionHypothesis

/-- The nodes that an included document stands for have no other instructions. -/
theorem mem_instructions_of_inlined {enters : Markup.Name → Bool} {document : Markup.Document}
    {instruction : String × String}
    (member : instruction ∈ instructionsOfAll enters (inlined document)) :
    instruction ∈ instructionsOfAll (fun _ => true) document.nodes := by
  obtain ⟨node, isInlined, inNode⟩ := mem_instructionsOfAll.mp
    (mem_instructionsOfAll_of_entered member)
  obtain ⟨top, isTop, ofTop⟩ := List.mem_flatMap.mp isInlined
  refine mem_instructionsOfAll.mpr ⟨top, isTop, ?_⟩
  cases top with
  | element name attributes children =>
      rw [instructionsOf, if_pos rfl]
      exact mem_instructionsOfAll.mpr ⟨node, ofTop, inNode⟩
  | instruction target data =>
      rw [List.mem_singleton.mp ofTop] at inNode
      exact inNode
  | text text => cases ofTop
  | cdata text => cases ofTop
  | comment text => cases ofTop
  | doctype text => cases ofTop

/-- Below the import limit, an import agrees with the nodes of the imported document. -/
theorem agree_import (knows : parser.KnowsBuiltIns) {base : Option Url} {data : String}
    {imported : PageSource} {included : Markup.Document} {content : List Markup.Node}
    (named : ∀ cursor : Cursor, cursor.base = base →
      Instruction.importedSource ⟨files, parser.locator, cursor⟩ data = .ok imported)
    (isImported : imported.document = .ok included)
    (includable : parser.Includable included content) (remaining : Nat) :
    Agree (fun cursor other => other = cursor ∧ cursor.base = base)
      (parser.parseNode files (parser.graft files (remaining + 1))
        (.instruction Instruction.importTarget data))
      (parser.parseNodes files (parser.graft files (remaining + 1)) "" (inlined included)) := by
  obtain ⟨before, name, attributes, children, after, shape, asideBefore, asideAfter⟩ :=
    Markup.Document.eq_append_of_parse (PageSource.document_eq_ok_iff.mp isImported)
  have grafted : parser.graft files (remaining + 1) imported =
      movedBy (.toDocument imported.url)
        (parser.parseNodes files (parser.graft files remaining) "" (inlined included)) := by
    rw [graft, isImported]
    dsimp only
    rw [(parseDocument_eq_inlined includable shape asideBefore asideAfter).1]
  -- Tag libraries are attached alike wherever the enclosing element is the same.
  have libraries : Agree (fun cursor other => other.parent = cursor.parent)
      (parser.parseNodes files (parser.graft files remaining) "" (inlined included))
      (parser.parseNodes files (parser.graft files (remaining + 1)) "" (inlined included)) := by
    refine parseNodes_related (compatible_agree Cursor.matching_parent) ?_ ""
    rintro ⟨target, data⟩ member
    have isLibrary : target = Instruction.taglibTarget :=
      includable.onlyLibraries _ (mem_instructions_of_inlined member)
    subst isLibrary
    rw [processInstruction_taglib knows.libraries, processInstruction_taglib knows.libraries]
    exact (agree_note _ _).andThen (agree_libraryStep Cursor.matching_parent _)
  constructor
  · exact (agree_processInstruction id (parser.agree_graft files _) _ _).firstKeeps
  · exact libraries.secondKeeps
  · rintro state other sameTree ⟨sameCursor, atBase⟩
    have reads : parser.parseNode files (parser.graft files (remaining + 1))
        (.instruction Instruction.importTarget data) state =
        parser.graft files (remaining + 1) imported
          (note Instruction.importTarget data state).1 := by
      rw [parseNode, processInstruction_import knows.imports]
      simp only [andThen, note, importStep]
      rw [named _ atBase]
    rw [reads, grafted]
    have sameParent : other.cursor.parent = state.cursor.parent := by rw [sameCursor]
    have innerSame := @Agree.same _ _ _ libraries
      { (note Instruction.importTarget data state).1 with
        cursor := { state.cursor with base := imported.url, depth := state.cursor.depth + 1 } }
      other sameTree sameParent
    exact innerSame

end Splicing

/-! ## Whole documents -/

/-- The page tree that a document becomes as a page at a location. -/
def treeOf (parser : PageParser) (files : FileSystem) (base : Option Url)
    (document : Markup.Document) : Except ParseError PageTree :=
  match parser.parseDocument files (parser.graft files importLimit) document (start base) with
  | (last, .ok ()) => .ok last.tree
  | (_, .error error) => .error error

theorem parse_map_tree {parser : PageParser} {files : FileSystem} {source : PageSource}
    {document : Markup.Document} (isDocument : source.document = .ok document) :
    (parser.parse files source).map Blueprint.tree = parser.treeOf files source.url document := by
  unfold parse run treeOf
  rw [isDocument]
  dsimp only
  rcases parser.parseDocument files (parser.graft files importLimit) document
    (start source.url) with ⟨last, _ | _⟩ <;> rfl

section Documents

variable {parser : PageParser} {files : FileSystem}

/-- Documents that agree where pages start become the same page tree. -/
theorem treeOf_eq_of_agree {near : Cursor → Cursor → Prop} {base : Option Url}
    {document document' : Markup.Document}
    (agree : Agree near (parser.parseDocument files (parser.graft files importLimit) document)
      (parser.parseDocument files (parser.graft files importLimit) document'))
    (nearStart : near (start base).cursor (start base).cursor) :
    parser.treeOf files base document = parser.treeOf files base document' := by
  obtain ⟨sameTree, sameOutcome⟩ := @Agree.same _ _ _ agree (start base) (start base) rfl nearStart
  unfold treeOf
  generalize parser.parseDocument files (parser.graft files importLimit) document (start base) =
    reading at sameTree sameOutcome ⊢
  generalize parser.parseDocument files (parser.graft files importLimit) document' (start base) =
    reading' at sameTree sameOutcome ⊢
  obtain ⟨last, outcome⟩ := reading
  obtain ⟨last', outcome'⟩ := reading'
  obtain rfl : outcome' = outcome := sameOutcome
  cases outcome' with
  | error error => rfl
  | ok done => exact congrArg Except.ok sameTree.symm

/-- Documents agree if one of them has, inside its root, nodes in place of a node
that they agree with. -/
theorem agree_of_spliced_root {near : Cursor → Cursor → Prop} (matching : Cursor.Matching near)
    {graft : PageSource → ParseStep} {children children' : List Markup.Node}
    (agree : Agree near (parser.parseNodes files graft "" children)
      (parser.parseNodes files graft "" children'))
    (others : ∀ target data, Agree near (parser.processInstruction files graft target data)
      (parser.processInstruction files graft target data))
    (before after : List Markup.Node) (name : Markup.Name) (attributes : List Markup.Attribute) :
    Agree near
      (parser.parseDocument files graft ⟨before ++ .element name attributes children :: after⟩)
      (parser.parseDocument files graft ⟨before ++ .element name attributes children' :: after⟩) := by
  have compatible := @compatible_agree parser _ matching
  have same : ∀ nodes, Agree near (parser.parseDocument files graft ⟨nodes⟩)
      (parser.parseDocument files graft ⟨nodes⟩) :=
    fun nodes => parseDocument_related compatible (fun _ _ => others _ _)
  have root : Agree near (parser.parseTopLevel files graft (.element name attributes children))
      (parser.parseTopLevel files graft (.element name attributes children')) := by
    simp only [parseTopLevel, parseRoot]
    split
    · exact compatible.fail _
    · split
      · exact compatible.fail _
      · exact agree
  rw [parseDocument_append, parseDocument_cons, parseDocument_append, parseDocument_cons]
  exact (same before).andThen (root.andThen (same after))

/-- Importing is literal inclusion: a page with an import reads like the page with
the nodes of the imported document in place of the import. The same holds, as long as the
limit of imports is not reached, for the reading of the page's document inside
any other page. -/
theorem import_reads_as_inclusion (knows : parser.KnowsBuiltIns) {page imported : PageSource}
    {included : Markup.Document} {data : String} {name : Markup.Name}
    {attributes : List Markup.Attribute}
    {before after children children' content : List Markup.Node}
    (isPage : page.document = .ok ⟨before ++ .element name attributes children :: after⟩)
    (named : Instruction.importedSource ⟨files, parser.locator, (start page.url).cursor⟩ data =
      .ok imported)
    (isImported : imported.document = .ok included)
    (includable : parser.Includable included content)
    (spliced : Spliced (.instruction Instruction.importTarget data) (inlined included)
      children children') :
    (parser.parse files page).map Blueprint.tree =
        parser.treeOf files page.url ⟨before ++ .element name attributes children' :: after⟩ ∧
      ∀ remaining state, state.cursor.base = page.url →
        let reading := parser.parseDocument files (parser.graft files (remaining + 1))
          ⟨before ++ .element name attributes children :: after⟩ state
        let reading' := parser.parseDocument files (parser.graft files (remaining + 1))
          ⟨before ++ .element name attributes children' :: after⟩ state
        reading'.1.tree = reading.1.tree ∧ reading'.2 = reading.2 := by
  obtain ⟨front, rootName, rootAttributes, rootChildren, back, shape, asideFront, asideBack⟩ :=
    Markup.Document.eq_append_of_parse (PageSource.document_eq_ok_iff.mp isImported)
  obtain ⟨-, blankFront, blankBack⟩ :=
    @parseDocument_eq_inlined parser files (parser.graft files 0) _ _ includable _ _ _ _ _ shape
      asideFront asideBack
  have namedAt : ∀ cursor : Cursor, cursor.base = page.url →
      Instruction.importedSource ⟨files, parser.locator, cursor⟩ data = .ok imported := by
    intro cursor atBase
    rw [← named]
    exact Instruction.importedSource_of_base atBase data
  have agree : ∀ remaining, Agree (fun cursor other => other = cursor ∧ cursor.base = page.url)
      (parser.parseDocument files (parser.graft files (remaining + 1))
        ⟨before ++ .element name attributes children :: after⟩)
      (parser.parseDocument files (parser.graft files (remaining + 1))
        ⟨before ++ .element name attributes children' :: after⟩) := by
    intro remaining
    have matching := Cursor.matching_eq_at page.url
    have others := fun target data => @agree_processInstruction parser
      (fun cursor other => other = cursor ∧ cursor.base = page.url) files
      (parser.graft files (remaining + 1)) (parser.graft files (remaining + 1))
      And.left (fun source => (parser.agree_graft files _ source).mono And.left) target data
    have imports := agree_import knows namedAt isImported includable remaining
    exact agree_of_spliced_root matching
      (agree_of_spliced matching rfl blankFront blankBack imports others spliced) others
      before after name attributes
  constructor
  · rw [parse_map_tree isPage]
    exact treeOf_eq_of_agree (agree (importLimit - 1)) ⟨rfl, rfl⟩
  · intro remaining state atBase
    exact (agree remaining).same rfl ⟨rfl, atBase⟩

/-- A page that imports a file with a single element reads like one that has it. -/
theorem span_reads_as_inclusion :
    let files := FileSystem.empty.put ["part"] (.file (Text.encodeUtf8 "<fsp><span/></fsp>"))
    let page : PageSource :=
      ⟨"<fsp><div><?import src=\"part\"?></div></fsp>", some (Url.ofFilePath ["home"])⟩
    let span : Markup.Node := .element ⟨none, "span", .unbound⟩ [] []
    let div : Markup.Node := .element ⟨none, "div", .unbound⟩ [] [span]
    ((new .core).parse files page).map Blueprint.tree =
      (new .core).treeOf files page.url ⟨[.element ⟨none, "fsp", .unbound⟩ [] [div]]⟩ := by
  intro files page span div
  have isPage : (PageSource.mk "<fsp><div><?import src=\"part\"?></div></fsp>"
        (some (Url.ofFilePath ["home"]))).document =
      .ok ⟨[] ++ .element ⟨none, "fsp", .unbound⟩ []
        [.element ⟨none, "div", .unbound⟩ [] [.instruction "import" "src=\"part\""]] :: []⟩ := by
    rfl
  have read : Instruction.readData Instruction.importTarget "src=\"part\"" =
      .ok (Dict.ofList [("src", "part")]) :=
    eq_ok_of_toOption (by decide +kernel)
  have joined : (Url.ofFilePath ["home"]).join "part" = .ok (Url.ofFilePath ["part"]) :=
    eq_ok_of_toOption (by decide +kernel)
  have holds : files.HoldsAtTop "/part" "part" (Text.encodeUtf8 "<fsp><span/></fsp>") := by
    constructor <;> decide +kernel
  have named : Instruction.importedSource ⟨files, none, (start page.url).cursor⟩ "src=\"part\"" =
      .ok ⟨"<fsp><span/></fsp>", some (Url.ofFilePath ["part"])⟩ :=
    Instruction.importedSource_of_holdsAtTop read rfl rfl joined rfl (by decide +kernel) holds
      (by decide +kernel)
  have includable : (new .core).Includable ⟨[.element ⟨none, "fsp", .unbound⟩ [] [span]]⟩ [span] :=
    ⟨⟨_, rfl, rfl⟩, by simp [instructionsOfAll, instructionsOf, span], by simp, rfl, rfl⟩
  have spliced : Spliced (.instruction Instruction.importTarget "src=\"part\"")
      (inlined ⟨[.element ⟨none, "fsp", .unbound⟩ [] [span]]⟩)
      [.element ⟨none, "div", .unbound⟩ []
        [.instruction Instruction.importTarget "src=\"part\""]] [div] :=
    @Spliced.inside _ _ [] [] _ _ _ _ (@Spliced.here _ _ [] [] rfl rfl)
  exact (import_reads_as_inclusion (knowsBuiltIns_new .core) isPage named rfl includable spliced).1

end Documents

end PageParser

end LivePage
