import LivePage.Proofs.Blueprint.Extension
import LivePage.Proofs.Blueprint.Inclusion

/-!
Contract: when a comment between two nodes makes no difference to the reading of a page.

Owns:
- the spot of a deleted comment: the element around it and the text on both sides;
- texts that join, so that taking them in one by one does what taking them in at once does;
- how text is split into neighbouring nodes makes no difference;
- a page is read the same without comments whose texts join, whatever its instructions do.

Does not own: comments whose texts do not join.
-/

namespace LivePage

open ParseStep

/-! ## Spots of comments -/

/-- What the reading knows of the element around a spot. -/
inductive Enclosure where
  /-- The root element of a document. -/
  | root
  | element (definition : Definition)
  /-- An element whose content is not read, because it is dropped or unknown. -/
  | unread

namespace Enclosure

/-- The element around the content of an element. -/
def below (parser : PageParser) (name : Markup.Name) : Enclosure → Enclosure
  | unread => unread
  | _ =>
      match parser.elementDefinition name with
      | .ok (some (definition, _)) => element definition
      | _ => unread

def definition? : Enclosure → Option Definition
  | element definition => some definition
  | _ => none

theorem below_of_known {parser : PageParser} {name : Markup.Name} {definition : Definition}
    {arguments : List Json}
    (known : parser.elementDefinition name = .ok (some (definition, arguments)))
    {enclosure : Enclosure} (isRead : enclosure ≠ unread) :
    enclosure.below parser name = element definition := by
  cases enclosure with
  | unread => exact absurd rfl isRead
  | root => simp only [below, known]
  | element _ => simp only [below, known]

theorem below_cases (parser : PageParser) (name : Markup.Name) (enclosure : Enclosure) :
    enclosure.below parser name = unread ∨
      ∃ definition arguments, parser.elementDefinition name = .ok (some (definition, arguments)) ∧
        enclosure.below parser name = element definition := by
  by_cases isRead : enclosure = unread
  · exact Or.inl (by rw [isRead]; rfl)
  · rcases known : parser.elementDefinition name with error | (_ | ⟨definition, arguments⟩)
    · exact Or.inl (by cases enclosure <;> simp only [below, known])
    · exact Or.inl (by cases enclosure <;> simp only [below, known])
    · exact Or.inr ⟨definition, arguments, rfl, below_of_known known isRead⟩

end Enclosure

/-- The spot between two texts, each of which may be empty. -/
structure Gap where
  enclosure : Enclosure
  left : String
  right : String

/-- Whether the two texts amount to the same as one text. As an attribute, what is left of each
has to make up what is left of both. As elements of their own, one of them has to be blank and
must not change what is left of the other one. Elsewhere it does not matter where a text ends. -/
def Gap.Joins (gap : Gap) : Prop :=
  match gap.enclosure with
  | .element definition =>
      match definition.content with
      | .asAttribute =>
          TextRun.trimmed (gap.left ++ gap.right) =
            TextRun.trimmed gap.left ++ TextRun.trimmed gap.right
      | .asChild =>
          Text.allBlank gap.left = true ∧
              TextRun.trimmed (gap.left ++ gap.right) = TextRun.trimmed gap.right ∨
            Text.allBlank gap.right = true ∧
              TextRun.trimmed (gap.left ++ gap.right) = TextRun.trimmed gap.left
      | .reject => True
      | .ignore => True
  | .root => True
  | .unread => True

namespace PageParser

/-- One comment is deleted, somewhere among nodes or inside of them; the gap is what is left
of it. -/
inductive Deletes (parser : PageParser) :
    Enclosure → List Markup.Node → List Markup.Node → Gap → Prop
  | here (enclosure : Enclosure) (before : List Markup.Node) (text : String)
      (after : List Markup.Node) :
      Deletes parser enclosure (before ++ .comment text :: after) (before ++ after)
        ⟨enclosure, trailingRun "" before, leadingRun after⟩
  | inside {enclosure : Enclosure} (before : List Markup.Node) (name : Markup.Name)
      (attributes : List Markup.Attribute) {children children' : List Markup.Node} {gap : Gap}
      (after : List Markup.Node)
      (deletes : Deletes parser (enclosure.below parser name) children children' gap) :
      Deletes parser enclosure (before ++ .element name attributes children :: after)
        (before ++ .element name attributes children' :: after) gap

/-- One comment is deleted between texts that join. -/
def DropsComment (parser : PageParser) (nodes nodes' : List Markup.Node) : Prop :=
  ∃ gap, parser.Deletes .root nodes nodes' gap ∧ gap.Joins

end PageParser

/-! ## Joining texts -/

theorem Dict.insert_insert {α : Type u} (dict : Dict α) (key : String) (first second : α) :
    (dict.insert key first).insert key second = dict.insert key second := by
  apply Dict.ext_get?
  intro other
  simp only [Dict.get?_insert]
  split <;> rfl

namespace TextRun

theorem trimmed_of_blank {run : String} (blank : Text.allBlank run = true) :
    trimmed run = "" := by
  rw [← isEmpty_trimmed] at blank
  exact String.isEmpty_iff.mp blank

end TextRun

namespace Gap

/-- Blank texts join everywhere. -/
theorem joins_of_blank (enclosure : Enclosure) {left right : String}
    (leftBlank : Text.allBlank left = true) (rightBlank : Text.allBlank right = true) :
    (Gap.mk enclosure left right).Joins := by
  have bothBlank : Text.allBlank (left ++ right) = true := by
    rw [Text.allBlank_append, leftBlank, rightBlank]
    rfl
  have leftNothing := TextRun.trimmed_of_blank leftBlank
  have rightNothing := TextRun.trimmed_of_blank rightBlank
  have nothing := TextRun.trimmed_of_blank bothBlank
  unfold Joins
  split
  · split
    · rw [nothing, leftNothing, rightNothing, String.empty_append]
    · exact Or.inl ⟨leftBlank, nothing.trans rightNothing.symm⟩
    · trivial
    · trivial
  · trivial
  · trivial

end Gap

namespace PageTree

/-- Text that is appended in two parts is appended as a whole. -/
theorem appendAttribute_appendAttribute (tree : PageTree) (number : Nat)
    (name first second : String) :
    (tree.appendAttribute number name first).appendAttribute number name second =
      tree.appendAttribute number name (first ++ second) := by
  unfold appendAttribute modify
  congr 1
  apply Array.toList_inj.mp
  rw [Array.toList_modify, Array.toList_modify, Array.toList_modify, List.modify_modify_eq]
  congr 1
  funext element
  simp only [Function.comp_apply, Dict.insert_insert, Dict.get?_insert, if_true, Option.getD_some,
    String.append_assoc]

end PageTree

namespace ParseStep

/-- Two steps that do the same wherever the enclosing element has a given definition. -/
def SameBelow (definition : Option Definition) (step step' : ParseStep) : Prop :=
  ∀ state : ParseState, state.cursor.parent < state.tree.size →
    (state.tree.element state.cursor.parent).definition = definition → step state = step' state

section SameBelow

variable {definition : Option Definition} {first first' second second' : ParseStep}

theorem SameBelow.of_eq (same : first = first') : SameBelow definition first first' :=
  fun state _ _ => congrFun same state

theorem SameBelow.trans {third : ParseStep} (same : SameBelow definition first second)
    (others : SameBelow definition second third) : SameBelow definition first third :=
  fun state inside known => (same state inside known).trans (others state inside known)

theorem SameBelow.andThen (same : SameBelow definition first first') (rest : ParseStep) :
    SameBelow definition (first.andThen rest) (first'.andThen rest) := by
  intro state inside known
  unfold ParseStep.andThen
  rw [same state inside known]

/-- Steps that come after a step that stays below the element and leaves it as it is. -/
theorem SameBelow.after (keeps : ∀ state, (first state).1.cursor = state.cursor)
    (extending : first.Extends) (same : SameBelow definition second second') :
    SameBelow definition (first.andThen second) (first.andThen second') := by
  intro state inside known
  have kept := keeps state
  have extended := extending state
  unfold ParseStep.andThen
  generalize first state = result at kept extended ⊢
  rcases result with ⟨next, _ | _⟩
  · rfl
  · have stillInside := Nat.lt_of_lt_of_le inside extended.size_le
    have stillKnown := (extended.kept inside).1.trans known
    rw [← kept] at stillInside stillKnown
    exact same next stillInside stillKnown

end SameBelow

end ParseStep

namespace PageParser

variable {parser : PageParser}

theorem processText_congr {run other : String}
    (same : TextRun.trimmed run = TextRun.trimmed other) :
    parser.processText run = parser.processText other := by
  funext state
  simp only [processText, same]

theorem processText_of_definition {definition : Option Definition} {state : ParseState}
    (known : (state.tree.element state.cursor.parent).definition = definition) (run : String) :
    parser.processText run state =
      if Text.allBlank run then (state, .ok ())
      else parser.textStep state.cursor.parent (TextRun.trimmed run) definition state := by
  cases blank : Text.allBlank run with
  | true =>
      rw [processText_of_blank blank]
      rfl
  | false =>
      have notBlank : (TextRun.trimmed run).isEmpty = false := by
        rw [TextRun.isEmpty_trimmed, blank]
      rw [processText_eq_textStep parser notBlank, known]
      rfl

/-- Where all text comes to the same, it does not matter where a text ends. -/
theorem sameBelow_of_uniform {definition : Option Definition}
    (outcome : Except ParseError Unit)
    (uniform : ∀ parent text state,
      parser.textStep parent text definition state = (state, outcome)) (left right : String) :
    SameBelow definition ((parser.processText left).andThen (parser.processText right))
      (parser.processText (left ++ right)) := by
  intro state _ known
  have taken := @processText_of_definition parser definition state known
  simp only [uniform] at taken
  unfold ParseStep.andThen
  rw [taken left, taken (left ++ right), Text.allBlank_append]
  cases Text.allBlank left with
  | true => simp only [if_true, taken right, Bool.true_and]
  | false =>
      cases outcome with
      | error error => rfl
      | ok nothing =>
          simp only [Bool.false_eq_true, if_false, taken right, Bool.false_and]
          split <;> rfl

/-- Two texts that are appended one after another. -/
theorem sameBelow_of_asAttribute {definition : Definition}
    (content : definition.content = .asAttribute) {left right : String}
    (joins : TextRun.trimmed (left ++ right) = TextRun.trimmed left ++ TextRun.trimmed right) :
    SameBelow (some definition)
      ((parser.processText left).andThen (parser.processText right))
      (parser.processText (left ++ right)) := by
  cases leftBlank : Text.allBlank left with
  | true =>
      rw [TextRun.trimmed_of_blank leftBlank, String.empty_append] at joins
      refine .of_eq ?_
      rw [processText_of_blank leftBlank, done_andThen, processText_congr joins]
  | false =>
      cases rightBlank : Text.allBlank right with
      | true =>
          rw [TextRun.trimmed_of_blank rightBlank, String.append_empty] at joins
          refine .of_eq ?_
          rw [processText_of_blank rightBlank, andThen_done, processText_congr joins]
      | false =>
          intro state inside known
          have appends : ∀ text, parser.textStep state.cursor.parent text (some definition) =
              edit (fun tree => .ok (tree.appendAttribute state.cursor.parent
                Definition.contentAttribute text)) := by
            intro text
            rw [textStep, content]
          have appended := PageTree.ExtendsTo.appendAttribute state.tree state.cursor.parent
            Definition.contentAttribute (TextRun.trimmed left)
          have stillKnown := (appended.kept inside).1.trans known
          unfold ParseStep.andThen
          rw [processText_of_definition known, processText_of_definition known,
            Text.allBlank_append, leftBlank, rightBlank, joins]
          simp only [Bool.false_eq_true, if_false, Bool.and_self, appends, edit]
          rw [@processText_of_definition parser _ { state with
            tree := state.tree.appendAttribute state.cursor.parent Definition.contentAttribute
              (TextRun.trimmed left) } stillKnown]
          simp only [rightBlank, Bool.false_eq_true, if_false, appends, edit,
            PageTree.appendAttribute_appendAttribute]

/-- Texts that join can be taken in one by one or at once. -/
theorem sameBelow_processText {gap : Gap} (joins : gap.Joins) (isRead : gap.enclosure ≠ .unread) :
    SameBelow gap.enclosure.definition?
      ((parser.processText gap.left).andThen (parser.processText gap.right))
      (parser.processText (gap.left ++ gap.right)) := by
  obtain ⟨enclosure, left, right⟩ := gap
  dsimp only at isRead ⊢
  cases enclosure with
  | unread => exact absurd rfl isRead
  | root => exact sameBelow_of_uniform _ (fun _ _ _ => rfl) left right
  | element definition =>
      unfold Gap.Joins at joins
      dsimp only at joins
      cases content : definition.content with
      | reject =>
          refine sameBelow_of_uniform (.error (.textNotAllowed definition.tag)) ?_ _ _
          intro parent text state
          rw [Enclosure.definition?, textStep, content]
          rfl
      | ignore =>
          refine sameBelow_of_uniform (.ok ()) ?_ _ _
          intro parent text state
          rw [Enclosure.definition?, textStep, content]
          rfl
      | asAttribute =>
          rw [content] at joins
          exact sameBelow_of_asAttribute content joins
      | asChild =>
          rw [content] at joins
          rcases joins with ⟨leftBlank, same⟩ | ⟨rightBlank, same⟩
          · refine .of_eq ?_
            rw [processText_of_blank leftBlank, done_andThen, processText_congr same]
          · refine .of_eq ?_
            rw [processText_of_blank rightBlank, andThen_done, processText_congr same]

/-! ## Reading without comments -/

section Reading

variable {files : FileSystem} {graft : PageSource → ParseStep}

/-- The text at the front of nodes is taken in before everything else. -/
theorem parseNodes_eq_leadingRun (nodes : List Markup.Node) :
    ∃ others : ParseStep, ∀ run, parser.parseNodes files graft run nodes =
      (parser.processText (run ++ leadingRun nodes)).andThen others := by
  induction nodes with
  | nil =>
      refine ⟨done, ?_⟩
      intro run
      rw [parseNodes_nil, leadingRun, String.append_empty, andThen_done]
  | cons node rest inductionHypothesis =>
      cases isText : runText? node with
      | some text =>
          obtain ⟨others, reads⟩ := inductionHypothesis
          refine ⟨others, ?_⟩
          intro run
          rw [parseNodes_text isText, reads, leadingRun, isText, String.append_assoc]
      | none =>
          refine ⟨(parser.parseNode files graft node).andThen
            (parser.parseNodes files graft "" rest), ?_⟩
          intro run
          rw [parseNodes_node isText, leadingRun, isText, String.append_empty]

theorem parseNodes_cons_of_node {node : Markup.Node} (noText : runText? node = none) (run : String)
    (rest : List Markup.Node) :
    parser.parseNodes files graft run (node :: rest) =
      (parser.parseNodes files graft run [node]).andThen
        (parser.parseNodes files graft "" rest) := by
  have nothing : parser.parseNodes files graft "" [] = done := processText_of_blank rfl
  rw [parseNodes_node noText, parseNodes_node noText, nothing, andThen_done, andThen_assoc]

end Reading

/-- The content of an element is read with the definition of the element around it. -/
theorem elementStep_congr {definition : Definition} {content content' : ParseStep}
    (same : SameBelow (some definition) content content') (arguments : List Json)
    (attributes : List Markup.Attribute) :
    parser.elementStep definition arguments attributes content =
      parser.elementStep definition arguments attributes content' := by
  funext state
  unfold elementStep numberedElementStep ParseStep.andThen
  cases outcome : parser.openElement definition arguments attributes state with
  | mk opened result =>
      cases result with
      | error error => rfl
      | ok nothing =>
          obtain ⟨inside, isDefined, -⟩ := element_of_openElement outcome
          have sameContent := same
            { opened with cursor := (Detour.toElement state.tree.size).go opened.cursor }
            inside isDefined
          simp only [ParseStep.movedBy, sameContent]

section Deletion

variable {files : FileSystem} {remaining : Nat}

/-- Nodes can be read in two parts where their texts join. -/
theorem sameBelow_parseNodes_append (handlers : parser.HandlersExtend) {enclosure : Enclosure}
    (isRead : enclosure ≠ .unread) {run : String} {before after : List Markup.Node}
    (joins : (Gap.mk enclosure (trailingRun run before) (leadingRun after)).Joins) :
    SameBelow enclosure.definition?
      ((parser.parseNodes files (parser.graft files remaining) run before).andThen
        (parser.parseNodes files (parser.graft files remaining) "" after))
      (parser.parseNodes files (parser.graft files remaining) run (before ++ after)) := by
  induction before generalizing run with
  | nil =>
      obtain ⟨others, reads⟩ :=
        @parseNodes_eq_leadingRun parser files (parser.graft files remaining) after
      rw [List.nil_append, parseNodes_nil, reads, reads, String.empty_append, ← andThen_assoc]
      exact (sameBelow_processText joins isRead).andThen others
  | cons node rest inductionHypothesis =>
      rw [trailingRun] at joins
      rw [List.cons_append]
      cases isText : runText? node with
      | some text =>
          rw [isText] at joins
          rw [parseNodes_text isText, parseNodes_text isText]
          exact inductionHypothesis joins
      | none =>
          rw [isText] at joins
          rw [parseNodes_cons_of_node isText run rest, andThen_assoc,
            parseNodes_cons_of_node isText run (rest ++ after)]
          -- What stands in front keeps the place and the definition of the element around it.
          exact (inductionHypothesis joins).after (parser.keeps_parseNodes files remaining run [node])
            (extends_parseNodes handlers (extends_graft handlers remaining) run [node])

/-- Deleting a comment between texts that join makes no difference below the element around
it. -/
theorem sameBelow_of_deletes (handlers : parser.HandlersExtend) {enclosure : Enclosure}
    {nodes nodes' : List Markup.Node} {gap : Gap}
    (deletes : parser.Deletes enclosure nodes nodes' gap) (joins : gap.Joins)
    (isRead : enclosure ≠ .unread) :
    SameBelow enclosure.definition?
      (parser.parseNodes files (parser.graft files remaining) "" nodes)
      (parser.parseNodes files (parser.graft files remaining) "" nodes') := by
  induction deletes with
  | here enclosure before text after =>
      rw [parseNodes_append_cons rfl]
      exact sameBelow_parseNodes_append handlers isRead joins
  | @inside enclosure before name attributes children children' gap after _ inductionHypothesis =>
      refine .of_eq ?_
      rw [parseNodes_append_cons rfl, parseNodes_append_cons rfl, parseNode_element,
        parseNode_element]
      rcases known : parser.elementDefinition name with error | (_ | ⟨definition, arguments⟩)
      · rfl
      · rfl
      · rw [Enclosure.below_of_known known isRead] at inductionHypothesis
        dsimp only
        rw [elementStep_congr (inductionHypothesis joins (by simp))]

end Deletion

/-! ## Splitting of text -/

/-- A text as nodes; an empty one needs none. -/
def textNodes (run : String) : List Markup.Node :=
  if run = "" then [] else [.text run]

mutual

/-- A node with neighbouring texts inside it put together. -/
def gathered : Markup.Node → Markup.Node
  | .element name attributes children => .element name attributes (gatheredAll "" children)
  | node => node

/-- Nodes with neighbouring texts put together, the text at the front continuing a run. -/
def gatheredAll (run : String) : List Markup.Node → List Markup.Node
  | [] => textNodes run
  | node :: rest =>
      match runText? node with
      | some text => gatheredAll (run ++ text) rest
      | none => textNodes run ++ gathered node :: gatheredAll "" rest

end

section Gathering

variable {files : FileSystem} {graft : PageSource → ParseStep}

theorem parseNodes_textNodes (run : String) (rest : List Markup.Node) :
    parser.parseNodes files graft "" (textNodes run ++ rest) =
      parser.parseNodes files graft run rest := by
  unfold textNodes
  split
  · next isEmpty => rw [isEmpty, List.nil_append]
  · rw [List.singleton_append, parseNodes_text rfl, String.empty_append]

theorem runText?_gathered {node : Markup.Node} (noText : runText? node = none) :
    runText? (gathered node) = none := by
  cases node with
  | element name attributes children => rfl
  | _ => exact noText

/-- How text is split into neighbouring nodes makes no difference. -/
theorem parseNodes_gathered :
    (∀ node, parser.parseNode files graft (gathered node) = parser.parseNode files graft node) ∧
    ∀ run nodes, parser.parseNodes files graft "" (gatheredAll run nodes) =
      parser.parseNodes files graft run nodes := by
  refine gathered.mutual_induct _ _ ?_ ?_ ?_ ?_ ?_
  · intro name attributes children inductionHypothesis
    rw [gathered, parseNode_element, parseNode_element, inductionHypothesis]
  · intro node notElement
    rw [gathered]
    exact notElement
  · intro run
    have asNodes := @parseNodes_textNodes parser files graft run []
    rw [List.append_nil] at asNodes
    exact asNodes
  · intro run node rest text isText inductionHypothesis
    rw [gatheredAll, isText, parseNodes_text isText]
    exact inductionHypothesis
  · intro run node rest noText ofNode ofRest
    rw [gatheredAll, noText]
    dsimp only
    rw [parseNodes_textNodes, parseNodes_node (runText?_gathered noText), parseNodes_node noText,
      ofNode, ofRest]

end Gathering

/-! ## Documents without comments -/

section Documents

variable {files : FileSystem} {children children' : List Markup.Node}

/-- Documents whose roots have the same content for the reading become the same page tree. -/
theorem treeOf_eq_of_sameBelow (handlers : parser.HandlersExtend)
    (same : SameBelow none
      (parser.parseNodes files (parser.graft files importLimit) "" children)
      (parser.parseNodes files (parser.graft files importLimit) "" children'))
    (base : Option Url) (before after : List Markup.Node) (name : Markup.Name)
    (attributes : List Markup.Attribute) :
    parser.treeOf files base ⟨before ++ .element name attributes children :: after⟩ =
      parser.treeOf files base ⟨before ++ .element name attributes children' :: after⟩ := by
  have sameRoot : SameBelow none
      (parser.parseTopLevel files (parser.graft files importLimit)
        (.element name attributes children))
      (parser.parseTopLevel files (parser.graft files importLimit)
        (.element name attributes children')) := by
    simp only [parseTopLevel, parseRoot]
    split
    · exact .of_eq rfl
    · cases attributes with
      | nil => exact same
      | cons written rest => exact .of_eq rfl
  have sameDocument := (sameRoot.andThen
      (parser.parseDocument files (parser.graft files importLimit) ⟨after⟩)).after
    (parser.keeps_parseDocument files importLimit ⟨before⟩)
    (extends_parseDocument handlers (extends_graft handlers importLimit) ⟨before⟩)
  rw [← parseDocument_cons, ← parseDocument_cons, ← parseDocument_append,
    ← parseDocument_append] at sameDocument
  have sameReading := sameDocument (start base) Nat.zero_lt_one rfl
  unfold treeOf
  rw [sameReading]

theorem sameBelow_of_dropped (handlers : parser.HandlersExtend)
    (dropped : Relation.ReflTransGen parser.DropsComment children children') :
    SameBelow none (parser.parseNodes files (parser.graft files importLimit) "" children)
      (parser.parseNodes files (parser.graft files importLimit) "" children') := by
  induction dropped with
  | refl => exact .of_eq rfl
  | tail _ last inductionHypothesis =>
      obtain ⟨gap, deletes, joins⟩ := last
      exact inductionHypothesis.trans (sameBelow_of_deletes handlers deletes joins (by simp))

end Documents

end PageParser

end LivePage
