import LivePage.Proofs.Blueprint.Inclusion
import Mathlib.Logic.Relation

/-!
Contract: how text is cut into nodes makes no difference to the reading of a page.

Owns:
- runs of text nodes, and the text that they make up;
- runs that are cut otherwise, and blank runs that come and go, at any depth;
- a page is read the same, whatever its instructions do.

Does not own: what becomes of a run of text.
-/

namespace LivePage

open ParseStep

namespace PageParser

/-! ## Runs -/

def isText (node : Markup.Node) : Bool :=
  (runText? node).isSome

/-- The text of the text nodes among nodes. -/
def runOf (nodes : List Markup.Node) : String :=
  String.join (nodes.filterMap runText?)

/-- One run of text is cut into other nodes, or a blank run is put where there is no text but
blank text, somewhere among nodes or inside of them. -/
inductive Resegments : List Markup.Node → List Markup.Node → Prop
  | run (before : List Markup.Node) {texts texts' : List Markup.Node} (after : List Markup.Node)
      (areText : ∀ node ∈ texts, isText node = true)
      (areText' : ∀ node ∈ texts', isText node = true) (sameText : runOf texts' = runOf texts) :
      Resegments (before ++ (texts ++ after)) (before ++ (texts' ++ after))
  | blank {before texts after : List Markup.Node}
      (areText : ∀ node ∈ texts, isText node = true)
      (isBlank : Text.allBlank (runOf texts) = true)
      (blankBefore : Text.allBlank (trailingRun "" before) = true)
      (blankAfter : Text.allBlank (leadingRun after) = true) :
      Resegments (before ++ after) (before ++ (texts ++ after))
  | inside (before : List Markup.Node) (name : Markup.Name) (attributes : List Markup.Attribute)
      {children children' : List Markup.Node} (after : List Markup.Node)
      (resegments : Resegments children children') :
      Resegments (before ++ .element name attributes children :: after)
        (before ++ .element name attributes children' :: after)

theorem runOf_cons {node : Markup.Node} {text : String} (isText : runText? node = some text)
    (rest : List Markup.Node) : runOf (node :: rest) = text ++ runOf rest := by
  rw [runOf, List.filterMap_cons_some isText, String.join_cons]
  rfl

theorem leadingRun_of_texts {texts : List Markup.Node}
    (areText : ∀ node ∈ texts, isText node = true) : leadingRun texts = runOf texts := by
  induction texts with
  | nil => rfl
  | cons node rest inductionHypothesis =>
      obtain ⟨text, isText⟩ := Option.isSome_iff_exists.mp (areText node List.mem_cons_self)
      rw [leadingRun, isText, runOf_cons isText,
        inductionHypothesis (fun other member => areText other (List.mem_cons_of_mem _ member))]

/-! ## Reading -/

section Reading

variable {parser : PageParser} {files : FileSystem} {graft : PageSource → ParseStep}

/-- Text nodes add their text to the run in front of them. -/
theorem parseNodes_texts {texts : List Markup.Node}
    (areText : ∀ node ∈ texts, isText node = true) (run : String) (after : List Markup.Node) :
    parser.parseNodes files graft run (texts ++ after) =
      parser.parseNodes files graft (run ++ runOf texts) after := by
  induction texts generalizing run with
  | nil => rw [List.nil_append, runOf, List.filterMap_nil, String.join_nil, String.append_empty]
  | cons node rest inductionHypothesis =>
      obtain ⟨text, isText⟩ := Option.isSome_iff_exists.mp (areText node List.mem_cons_self)
      rw [List.cons_append, parseNodes_text isText, runOf_cons isText,
        inductionHypothesis (fun other member => areText other (List.mem_cons_of_mem _ member)),
        String.append_assoc]

/-- Nodes that are read alike behind every run are read alike behind further nodes. -/
theorem parseNodes_append_congr {after after' : List Markup.Node}
    (same : ∀ run, parser.parseNodes files graft run after = parser.parseNodes files graft run after')
    (run : String) (before : List Markup.Node) :
    parser.parseNodes files graft run (before ++ after) =
      parser.parseNodes files graft run (before ++ after') := by
  induction before generalizing run with
  | nil => exact same run
  | cons node rest inductionHypothesis =>
      rw [List.cons_append, List.cons_append]
      cases isText : runText? node with
      | some text => rw [parseNodes_text isText, parseNodes_text isText, inductionHypothesis]
      | none => rw [parseNodes_node isText, parseNodes_node isText, inductionHypothesis]

/-- A blank run among blank text is not noticed. -/
theorem parseNodes_blank {before texts after : List Markup.Node}
    (areText : ∀ node ∈ texts, isText node = true)
    (isBlank : Text.allBlank (runOf texts) = true)
    (blankBefore : Text.allBlank (trailingRun "" before) = true)
    (blankAfter : Text.allBlank (leadingRun after) = true) :
    parser.parseNodes files graft "" (before ++ after) =
      parser.parseNodes files graft "" (before ++ (texts ++ after)) := by
  have blankRun : Text.allBlank (leadingRun (texts ++ after)) = true :=
    leadingRun_append_blank (by rw [leadingRun_of_texts areText, isBlank]) blankAfter
  have nothing : Text.allBlank "" = true := rfl
  rw [parseNodes_append_of_blank blankBefore blankAfter,
    parseNodes_append_of_blank blankBefore blankRun, parseNodes_texts areText,
    String.empty_append, parseNodes_of_blank isBlank nothing blankAfter]

theorem parseNodes_of_resegments {nodes nodes' : List Markup.Node}
    (resegments : Resegments nodes nodes') :
    parser.parseNodes files graft "" nodes = parser.parseNodes files graft "" nodes' := by
  induction resegments with
  | run before after areText areText' sameText =>
      apply parseNodes_append_congr
      intro run
      rw [parseNodes_texts areText, parseNodes_texts areText', sameText]
  | blank areText isBlank blankBefore blankAfter =>
      exact parseNodes_blank areText isBlank blankBefore blankAfter
  | inside before name attributes after _ inductionHypothesis =>
      rw [parseNodes_append_cons rfl, parseNodes_append_cons rfl, parseNode_element,
        parseNode_element, inductionHypothesis]

theorem parseNodes_of_resegmented {nodes nodes' : List Markup.Node}
    (resegmented : Relation.EqvGen Resegments nodes nodes') :
    parser.parseNodes files graft "" nodes = parser.parseNodes files graft "" nodes' := by
  induction resegmented with
  | rel _ _ resegments => exact parseNodes_of_resegments resegments
  | refl _ => rfl
  | symm _ _ _ inductionHypothesis => exact inductionHypothesis.symm
  | trans _ _ _ _ _ first second => exact first.trans second

/-- Documents whose roots have content that is read alike are read alike. -/
theorem parseDocument_congr {children children' : List Markup.Node}
    (same : parser.parseNodes files graft "" children = parser.parseNodes files graft "" children')
    (before after : List Markup.Node) (name : Markup.Name) (attributes : List Markup.Attribute) :
    parser.parseDocument files graft ⟨before ++ .element name attributes children :: after⟩ =
      parser.parseDocument files graft ⟨before ++ .element name attributes children' :: after⟩ := by
  have sameRoot : parser.parseTopLevel files graft (.element name attributes children) =
      parser.parseTopLevel files graft (.element name attributes children') := by
    simp only [parseTopLevel, parseRoot, same]
  rw [parseDocument_append, parseDocument_append, parseDocument_cons, parseDocument_cons, sameRoot]

end Reading

/-- How text is cut into nodes makes no difference: a document is read the same, in every state
and as an import too, when runs of text inside its root are cut into other text and CDATA nodes,
and when blank runs come and go where there is no other text. So a page becomes the same page
tree or leads to the same error. -/
theorem segmentation_makes_no_difference (parser : PageParser) (files : FileSystem)
    {children children' : List Markup.Node}
    (resegmented : Relation.EqvGen Resegments children children')
    (before after : List Markup.Node) (name : Markup.Name) (attributes : List Markup.Attribute) :
    (∀ graft state,
      parser.parseDocument files graft ⟨before ++ .element name attributes children :: after⟩ state =
        parser.parseDocument files graft ⟨before ++ .element name attributes children' :: after⟩
          state) ∧
    ∀ source source' : PageSource, source'.url = source.url →
      source.document = .ok ⟨before ++ .element name attributes children :: after⟩ →
      source'.document = .ok ⟨before ++ .element name attributes children' :: after⟩ →
      (parser.parse files source').map Blueprint.tree =
        (parser.parse files source).map Blueprint.tree := by
  have sameReading := fun graft => @parseDocument_congr parser files graft _ _
    (parseNodes_of_resegmented resegmented) before after name attributes
  refine ⟨fun graft state => congrFun (sameReading graft) state, ?_⟩
  intro source source' sameUrl isDocument isDocument'
  rw [parse_map_tree isDocument', parse_map_tree isDocument, sameUrl, treeOf, treeOf, sameReading]

/-- A block with text that CDATA divides, and the same block with one text inside and blank text
around it. -/
theorem divided_text_reads_as_one_text :
    ((new .core).parse .empty (.ofText "<fsp> <div>ab</div>\n</fsp>")).map Blueprint.tree =
      ((new .core).parse .empty (.ofText "<fsp><div>a<![CDATA[]]><![CDATA[b]]></div></fsp>")).map
        Blueprint.tree := by
  let block (children : List Markup.Node) : Markup.Node :=
    .element ⟨none, "div", .unbound⟩ [] children
  have isDocument : (PageSource.ofText "<fsp><div>a<![CDATA[]]><![CDATA[b]]></div></fsp>").document =
      .ok ⟨[] ++ .element ⟨none, "fsp", .unbound⟩ []
        [block [.text "a", .cdata "", .cdata "b"]] :: []⟩ := by rfl
  have isDocument' : (PageSource.ofText "<fsp> <div>ab</div>\n</fsp>").document =
      .ok ⟨[] ++ .element ⟨none, "fsp", .unbound⟩ []
        [.text " ", block [.text "ab"], .text "\n"] :: []⟩ := by rfl
  have together : Resegments [block [.text "a", .cdata "", .cdata "b"]] [block [.text "ab"]] :=
    .inside [] _ [] [] (@Resegments.run [] [.text "a", .cdata "", .cdata "b"] [.text "ab"] []
      (by decide) (by decide) (by decide +kernel))
  have inFront : Resegments [block [.text "ab"]] [.text " ", block [.text "ab"]] :=
    @Resegments.blank [] [.text " "] _ (by decide) (by decide +kernel) rfl rfl
  have behind : Resegments [.text " ", block [.text "ab"]]
      [.text " ", block [.text "ab"], .text "\n"] :=
    @Resegments.blank [.text " ", block [.text "ab"]] [.text "\n"] [] (by decide)
      (by decide +kernel) rfl rfl
  have resegmented : Relation.EqvGen Resegments [block [.text "a", .cdata "", .cdata "b"]]
      [.text " ", block [.text "ab"], .text "\n"] :=
    .trans _ _ _ (.rel _ _ together) (.trans _ _ _ (.rel _ _ inFront) (.rel _ _ behind))
  exact (segmentation_makes_no_difference (new .core) .empty resegmented [] [] _ []).2 _ _ rfl
    isDocument isDocument'

end PageParser

end LivePage
