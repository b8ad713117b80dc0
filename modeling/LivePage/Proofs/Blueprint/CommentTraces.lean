import LivePage.Proofs.Blueprint.Comments
import LivePage.Proofs.Blueprint.Validity

/-!
Contract: which comments leave no trace in a page.

Owns:
- the layout of a branch determines the branch;
- a comment between texts that do not join changes the page tree of a valid page;
- pages with and without comments become the same page tree exactly where texts join.

Does not own: what a reading makes of the nodes around a comment.
-/

namespace LivePage

open ParseStep

/-! ## Layouts -/

namespace Branch

theorem numbers_eq_nil_iff {first : Nat} {branches : List Branch} :
    numbers first branches = [] ↔ branches = [] := by
  cases branches <;> simp [numbers]

/-- Branches one after another are determined by their layout and their numbers. -/
private theorem layOutAll_injective {branches : List Branch}
    (each : ∀ branch ∈ branches, ∀ number parent other,
      branch.layOut number parent = other.layOut number parent → branch = other)
    {number parent : Nat} {others : List Branch}
    (sameNumbers : numbers number branches = numbers number others)
    (sameLayout : layOutAll number parent branches = layOutAll number parent others) :
    branches = others := by
  induction branches generalizing number others with
  | nil => exact (numbers_eq_nil_iff.mp sameNumbers.symm).symm
  | cons branch rest inductionHypothesis =>
      cases others with
      | nil => cases sameNumbers
      | cons other otherRest =>
          have restNumbers : numbers (number + branch.size) rest =
              numbers (number + other.size) otherRest := (List.cons.inj sameNumbers).2
          have ofRest := @inductionHypothesis
            (fun next member => each next (List.mem_cons_of_mem _ member))
          rw [layOutAll, layOutAll] at sameLayout
          -- The last branch fills what is left; the size of every other one shows in the numbers.
          cases rest with
          | nil =>
              have noOthers : otherRest = [] := numbers_eq_nil_iff.mp restNumbers.symm
              rw [noOthers] at sameLayout ⊢
              simp only [layOutAll, List.append_nil] at sameLayout
              rw [each branch (by simp) _ _ other sameLayout]
          | cons next more =>
              cases otherRest with
              | nil => cases restNumbers
              | cons otherNext otherMore =>
                  have sameFirst : number + branch.size = number + other.size :=
                    (List.cons.inj restNumbers).1
                  have sameLength : (branch.layOut number (some parent)).length =
                      (other.layOut number (some parent)).length := by
                    rw [length_layOut, length_layOut]
                    omega
                  obtain ⟨sameBranch, sameRest⟩ := List.append_inj sameLayout sameLength
                  rw [← sameFirst] at restNumbers sameRest
                  rw [each branch (by simp) _ _ other sameBranch, ofRest restNumbers sameRest]

/-- The layout of a branch determines the branch. -/
theorem layOut_injective {branch other : Branch} {number : Nat} {parent : Option Nat}
    (same : branch.layOut number parent = other.layOut number parent) : branch = other := by
  induction branch using induct generalizing other number parent with
  | node label children inductionHypothesis =>
      obtain ⟨otherLabel, otherChildren⟩ := other
      rw [layOut, layOut] at same
      obtain ⟨sameElement, sameLayout⟩ := List.cons.inj same
      obtain ⟨sameDefinition, -, sameNumbers, -, sameAttributes, sameArguments, sameLibraries⟩ :=
        Element.mk.inj sameElement
      have sameLabel : label = otherLabel := by
        cases label
        cases otherLabel
        simp_all [Branch.label]
      have sameChildren : children = otherChildren :=
        layOutAll_injective (fun child member _ _ other laidOut =>
          inductionHypothesis child member laidOut) sameNumbers sameLayout
      rw [sameLabel, sameChildren]

/-! ## Text among contributions -/

/-- The text of the content attribute. -/
def contentText (branch : Branch) : String :=
  (branch.label.attributes.get? Definition.contentAttribute).getD ""

/-- The text among contributions. -/
def textOf : List Contribution → String
  | [] => ""
  | .text text :: rest => text ++ textOf rest
  | _ :: rest => textOf rest

theorem textOf_append (first second : List Contribution) :
    textOf (first ++ second) = textOf first ++ textOf second := by
  induction first with
  | nil => rw [List.nil_append, textOf, String.empty_append]
  | cons head rest inductionHypothesis =>
      cases head <;> simp only [List.cons_append, textOf, inductionHypothesis, String.append_assoc]

theorem contentText_foldl_take (contributions : List Contribution) (branch : Branch) :
    (contributions.foldl take branch).contentText = branch.contentText ++ textOf contributions := by
  induction contributions generalizing branch with
  | nil => rw [List.foldl_nil, textOf, String.append_empty]
  | cons head rest inductionHypothesis =>
      rw [List.foldl_cons, inductionHypothesis]
      cases head with
      | child child => rfl
      | library library => rfl
      | text text =>
          have appended : (branch.take (.text text)).contentText = branch.contentText ++ text := by
            simp [contentText, take, Branch.label, Label.appendText, Dict.get?_insert]
          rw [appended, textOf, String.append_assoc]

end Branch

theorem PageTree.ofBranch_injective {branch other : Branch}
    (same : PageTree.ofBranch branch = PageTree.ofBranch other) : branch = other := by
  apply Branch.layOut_injective
  have sameElements := congrArg (fun tree => tree.elements.toList) same
  exact sameElements

namespace PageParser

variable {parser : PageParser}

/-! ## Runs of text around a comment -/

theorem leadingRun_mem_textRuns (run : String) (nodes : List Markup.Node) :
    run ++ leadingRun nodes ∈ textRuns run nodes := by
  induction nodes generalizing run with
  | nil => simp [leadingRun, textRuns]
  | cons node rest inductionHypothesis =>
      rw [leadingRun, textRuns]
      cases runText? node with
      | some text =>
          dsimp only
          rw [← String.append_assoc]
          exact inductionHypothesis (run ++ text)
      | none => simp

/-- A node that is no text ends a run of text and starts a new one. -/
theorem textRuns_append_cons {node : Markup.Node} (noText : runText? node = none) (run : String)
    (before after : List Markup.Node) :
    trailingRun run before ∈ textRuns run (before ++ node :: after) ∧
      ∀ text ∈ textRuns "" after, text ∈ textRuns run (before ++ node :: after) := by
  induction before generalizing run with
  | nil =>
      rw [List.nil_append, textRuns, noText]
      exact ⟨List.mem_cons_self, fun text member => List.mem_cons_of_mem _ member⟩
  | cons head rest inductionHypothesis =>
      rw [List.cons_append, textRuns, trailingRun]
      cases runText? head with
      | some text => exact inductionHypothesis (run ++ text)
      | none =>
          obtain ⟨isRun, areRuns⟩ := inductionHypothesis ""
          exact ⟨List.mem_cons_of_mem _ isRun,
            fun text member => List.mem_cons_of_mem _ (areRuns text member)⟩

/-! ## Content around a comment -/

section Content

variable (parent : Option Definition)

theorem nodesContent_eq_leadingRun (nodes : List Markup.Node) :
    ∃ others, ∀ run, parser.nodesContent parent run nodes =
      parser.textContent parent (run ++ leadingRun nodes) ++ others := by
  induction nodes with
  | nil =>
      refine ⟨[], ?_⟩
      intro run
      rw [nodesContent, leadingRun, String.append_empty, List.append_nil]
  | cons node rest inductionHypothesis =>
      cases isText : runText? node with
      | some text =>
          obtain ⟨others, contents⟩ := inductionHypothesis
          refine ⟨others, ?_⟩
          intro run
          rw [nodesContent, isText, leadingRun, isText, ← String.append_assoc]
          exact contents (run ++ text)
      | none =>
          refine ⟨parser.nodeContent node ++ parser.nodesContent parent "" rest, ?_⟩
          intro run
          rw [nodesContent, isText, leadingRun, isText, String.append_empty]

/-- A node that is no text divides the content. -/
theorem nodesContent_append_cons {node : Markup.Node} (noText : runText? node = none)
    (run : String) (before after : List Markup.Node) :
    parser.nodesContent parent run (before ++ node :: after) =
      parser.nodesContent parent run before ++
        (parser.nodeContent node ++ parser.nodesContent parent "" after) := by
  induction before generalizing run with
  | nil => rw [List.nil_append, nodesContent, nodesContent, noText]
  | cons head rest inductionHypothesis =>
      rw [List.cons_append, nodesContent, nodesContent]
      cases runText? head with
      | some text => exact inductionHypothesis (run ++ text)
      | none =>
          dsimp only
          rw [inductionHypothesis, List.append_assoc, List.append_assoc]

/-- The contents with and without a comment differ in the text around it only. -/
theorem nodesContent_around_comment (run text : String) (before after : List Markup.Node) :
    ∃ front back,
      parser.nodesContent parent run (before ++ .comment text :: after) =
        front ++ (parser.textContent parent (trailingRun run before) ++
          parser.textContent parent (leadingRun after)) ++ back ∧
      parser.nodesContent parent run (before ++ after) =
        front ++ parser.textContent parent (trailingRun run before ++ leadingRun after) ++ back := by
  induction before generalizing run with
  | nil =>
      obtain ⟨others, contents⟩ := @nodesContent_eq_leadingRun parser parent after
      refine ⟨[], others, ?_, contents run⟩
      rw [List.nil_append, nodesContent, nodeContent, contents, String.empty_append]
      · simp [runText?, trailingRun]
      · simp
  | cons head rest inductionHypothesis =>
      rw [List.cons_append, List.cons_append, nodesContent, nodesContent, trailingRun]
      cases runText? head with
      | some text => exact inductionHypothesis (run ++ text)
      | none =>
          obtain ⟨front, back, withComment, without⟩ := inductionHypothesis ""
          refine ⟨parser.textContent parent run ++ (parser.nodeContent head ++ front), back, ?_, ?_⟩
          · dsimp only
            rw [withComment]
            simp only [List.append_assoc]
          · dsimp only
            rw [without]
            simp only [List.append_assoc]

end Content

/-! ## Texts that do not join -/

theorem textOf_textContent {definition : Definition} (content : definition.content = .asAttribute)
    (run : String) :
    Branch.textOf (parser.textContent (some definition) run) = TextRun.trimmed run := by
  unfold textContent
  cases blank : Text.allBlank run with
  | true => rw [TextRun.trimmed_of_blank blank]; rfl
  | false =>
      simp only [Bool.false_eq_true, if_false, Option.map_some, content]
      exact String.append_empty

/-- The children that a text becomes. -/
def textChildren (text : Definition) (run : String) : List Branch :=
  if Text.allBlank run then [] else [textBranch text (TextRun.trimmed run)]

theorem children_textContent {definition text : Definition} (content : definition.content = .asChild)
    (known : parser.registry.get? Definition.textTag = some text) (run : String) :
    (parser.textContent (some definition) run).filterMap Branch.ofContribution? =
      textChildren text run := by
  unfold textContent textChildren
  cases blank : Text.allBlank run with
  | true => rfl
  | false =>
      simp only [Bool.false_eq_true, if_false, Option.map_some, content, known]
      rfl

theorem textBranch_injective {definition : Definition} {text other : String}
    (same : textBranch definition text = textBranch definition other) : text = other := by
  have content : ∀ text, (textBranch definition text).contentText = text := by
    intro text
    simp [Branch.contentText, textBranch, Branch.label, Dict.get?_insert]
  rw [← content text, same, content]

/-- Two texts that become the same children as one text do not both become a child. -/
theorem joins_of_textChildren {definition text : Definition}
    (content : definition.content = .asChild) {left right : String}
    (same : textChildren text left ++ textChildren text right =
      textChildren text (left ++ right)) : (Gap.mk (.element definition) left right).Joins := by
  unfold textChildren at same
  rw [Text.allBlank_append] at same
  cases leftBlank : Text.allBlank left with
  | true =>
      cases rightBlank : Text.allBlank right with
      | true => exact Gap.joins_of_blank _ leftBlank rightBlank
      | false =>
          simp only [leftBlank, rightBlank, Bool.and_false, if_true, Bool.false_eq_true, if_false,
            List.nil_append, List.cons.injEq, and_true] at same
          simp only [Gap.Joins, content]
          exact Or.inl ⟨leftBlank, (textBranch_injective same).symm⟩
  | false =>
      cases rightBlank : Text.allBlank right with
      | true =>
          simp only [leftBlank, rightBlank, Bool.false_and, if_true, Bool.false_eq_true, if_false,
            List.append_nil, List.cons.injEq, and_true] at same
          simp only [Gap.Joins, content]
          exact Or.inr ⟨rightBlank, (textBranch_injective same).symm⟩
      | false => simp [leftBlank, rightBlank] at same

/-- Where the content stays the same without a comment, the texts around it join. -/
theorem joins_of_sameContent {enclosure : Enclosure} {left right : String}
    (leftFits : parser.TextFits enclosure.definition? left)
    (rightFits : parser.TextFits enclosure.definition? right) {front back : List Contribution}
    {branch : Branch}
    (same : (front ++ (parser.textContent enclosure.definition? left ++
        parser.textContent enclosure.definition? right) ++ back).foldl Branch.take branch =
      (front ++ parser.textContent enclosure.definition? (left ++ right) ++ back).foldl
        Branch.take branch) :
    (Gap.mk enclosure left right).Joins := by
  cases enclosure with
  | root => trivial
  | unread => trivial
  | element definition =>
      simp only [Enclosure.definition?] at leftFits rightFits same
      cases content : definition.content with
      | reject => simp [Gap.Joins, content]
      | ignore => simp [Gap.Joins, content]
      | asAttribute =>
          have sameText := congrArg Branch.contentText same
          simp only [Branch.contentText_foldl_take, Branch.textOf_append,
            textOf_textContent content] at sameText
          rw [String.append_right_inj, String.append_left_inj, String.append_right_inj] at sameText
          simp only [Gap.Joins, content]
          exact sameText.symm
      | asChild =>
          have sameChildren := congrArg Branch.children same
          simp only [Branch.children_foldl_take, List.filterMap_append] at sameChildren
          rw [List.append_right_inj, List.append_left_inj, List.append_right_inj] at sameChildren
          cases known : parser.registry.get? Definition.textTag with
          | some text =>
              simp only [children_textContent content known] at sameChildren
              exact joins_of_textChildren content sameChildren
          | none =>
              -- Without a definition for text there is only blank text.
              have blank : ∀ {run}, parser.TextFits (some definition) run →
                  Text.allBlank run = true := by
                intro run fits
                by_contra notBlank
                obtain ⟨_, ⟨⟩, takes⟩ := fits (by simpa using notBlank)
                obtain ⟨text, isKnown, -⟩ := takes.asElement content
                rw [known] at isKnown
                cases isKnown
              exact Gap.joins_of_blank _ (blank leftFits) (blank rightFits)

theorem joins_of_unread {nodes nodes' : List Markup.Node} {gap : Gap}
    (deletes : parser.Deletes .unread nodes nodes' gap) : gap.Joins := by
  generalize isUnread : Enclosure.unread = enclosure at deletes
  induction deletes with
  | here => rw [← isUnread]; trivial
  | inside _ _ _ _ _ inductionHypothesis =>
      apply inductionHypothesis
      rw [← isUnread]
      rfl

/-- Deleting a comment from content that fits changes what the content becomes, unless the
texts around the comment join. -/
theorem joins_of_deletes {enclosure : Enclosure} {nodes nodes' : List Markup.Node} {gap : Gap}
    (deletes : parser.Deletes enclosure nodes nodes' gap)
    (fits : parser.AllFit enclosure.definition? "" nodes) {branch : Branch}
    (same : (parser.nodesContent enclosure.definition? "" nodes).foldl Branch.take branch =
      (parser.nodesContent enclosure.definition? "" nodes').foldl Branch.take branch) :
    gap.Joins := by
  induction deletes generalizing branch with
  | here enclosure before text after =>
      obtain ⟨front, back, withComment, without⟩ :=
        @nodesContent_around_comment parser enclosure.definition? "" text before after
      rw [withComment, without] at same
      have noText : runText? (.comment text) = none := rfl
      obtain ⟨leftIsRun, areRuns⟩ := textRuns_append_cons noText "" before after
      have rightIsRun := leadingRun_mem_textRuns "" after
      rw [String.empty_append] at rightIsRun
      exact joins_of_sameContent (fits.text _ leftIsRun) (fits.text _ (areRuns _ rightIsRun)) same
  | @inside enclosure before name attributes children children' gap after deletes
      inductionHypothesis =>
      rcases Enclosure.below_cases parser name enclosure with
        isUnread | ⟨definition, arguments, known, isBelow⟩
      · exact joins_of_unread (isUnread ▸ deletes)
      · rw [isBelow] at inductionHypothesis
        have becomes : ∀ children, parser.nodeContent (.element name attributes children) =
            [.child ((parser.nodesContent (some definition) "" children).foldl Branch.take
              (parser.opened definition arguments attributes))] := by
          intro children
          rw [nodeContent, known]
        have noText : ∀ children, runText? (.element name attributes children) = none :=
          fun _ => rfl
        rw [nodesContent_append_cons _ (noText _), nodesContent_append_cons _ (noText _),
          becomes, becomes] at same
        have sameChildren := congrArg Branch.children same
        simp only [Branch.children_foldl_take, List.filterMap_append, List.filterMap_cons,
          List.filterMap_nil, Branch.ofContribution?] at sameChildren
        rw [List.append_right_inj, List.append_right_inj, List.append_left_inj] at sameChildren
        have standsFor := elementDefinition_eq_some_iff.mp known
        have elementFits := fits.nodes (.element name attributes children) (by simp)
        obtain ⟨-, -, contentFits, -⟩ := (fits_element_iff standsFor).mp elementFits
        exact inductionHypothesis contentFits (List.cons.inj sameChildren).1

/-! ## Pages -/

theorem instructionsOfAll_of_deletes {enclosure : Enclosure} {nodes nodes' : List Markup.Node}
    {gap : Gap} (deletes : parser.Deletes enclosure nodes nodes' gap) :
    instructionsOfAll (fun _ => true) nodes' = instructionsOfAll (fun _ => true) nodes := by
  induction deletes with
  | here enclosure before text after =>
      have nothing : instructionsOf (fun _ => true) (.comment text) = [] := rfl
      rw [instructionsOfAll_append, instructionsOfAll_append, instructionsOfAll, nothing,
        List.nil_append]
  | inside before name attributes after _ inductionHypothesis =>
      simp only [instructionsOfAll_append, instructionsOfAll, instructionsOf, if_true,
        inductionHypothesis]

section Documents

variable {files : FileSystem} {base : Option Url} {before after : List Markup.Node}
  {name : Markup.Name} {attributes : List Markup.Attribute} {children children' : List Markup.Node}

/-- What a document without instructions becomes, given the content of its root. -/
theorem tree_of_treeOf (asideBefore : ∀ node ∈ before, node.standsAside = true)
    (asideAfter : ∀ node ∈ after, node.standsAside = true)
    (noInstructions : instructionsOfAll (fun _ => true)
      (before ++ .element name attributes children :: after) = []) {tree : PageTree}
    (read : parser.treeOf files base ⟨before ++ .element name attributes children :: after⟩ =
      .ok tree) :
    parser.AllFit none "" children ∧
      tree = .ofBranch ((parser.nodesContent none "" children).foldl Branch.take (.bare none)) := by
  have yields := @yields_document parser files (parser.graft files importLimit) before after name
    attributes children asideBefore asideAfter noInstructions
  unfold treeOf at read
  split at read
  · next last taken =>
      cases read
      obtain ⟨⟨rootName, content, isRoot, -, contentFits, -⟩, -, rfl⟩ :=
        (yields (start base) last Nat.zero_lt_one rfl).mp taken
      rw [Markup.Document.root?_eq_some asideBefore] at isRoot
      cases isRoot
      exact ⟨contentFits, PageTree.foldl_contribute_empty _⟩
  · cases read

/-- A document without instructions becomes another page tree without a comment, unless the
texts around the comment join. -/
theorem joins_of_sameTree (asideBefore : ∀ node ∈ before, node.standsAside = true)
    (asideAfter : ∀ node ∈ after, node.standsAside = true)
    (noInstructions : instructionsOfAll (fun _ => true)
      (before ++ .element name attributes children :: after) = []) {gap : Gap}
    (deletes : parser.Deletes .root children children' gap) {tree : PageTree}
    (read : parser.treeOf files base ⟨before ++ .element name attributes children :: after⟩ =
      .ok tree)
    (read' : parser.treeOf files base ⟨before ++ .element name attributes children' :: after⟩ =
      .ok tree) : gap.Joins := by
  have noInstructions' : instructionsOfAll (fun _ => true)
      (before ++ .element name attributes children' :: after) = [] := by
    simp only [instructionsOfAll_append, instructionsOfAll, instructionsOf, if_true,
      instructionsOfAll_of_deletes deletes] at noInstructions ⊢
    exact noInstructions
  obtain ⟨contentFits, isTree⟩ := tree_of_treeOf asideBefore asideAfter noInstructions read
  obtain ⟨-, isTree'⟩ := tree_of_treeOf asideBefore asideAfter noInstructions' read'
  exact joins_of_deletes deletes contentFits
    (PageTree.ofBranch_injective (isTree.symm.trans isTree'))

end Documents

/-- A page is read the same without comments whose texts join, whichever handlers take part, as
long as these only extend the page tree, and whatever error the page leads to. A page without
instructions that is read becomes the same page tree without a comment only if the texts around
the comment join. -/
theorem comments_are_dropped_where_texts_join (handlers : parser.HandlersExtend)
    {files : FileSystem} {source source' : PageSource} (sameUrl : source'.url = source.url)
    {before after : List Markup.Node} {name : Markup.Name} {attributes : List Markup.Attribute}
    {children children' content' : List Markup.Node}
    (isDocument : source.document = .ok ⟨before ++ .element name attributes children :: after⟩)
    (isDocument' : source'.document = .ok ⟨before ++ .element name attributes content' :: after⟩)
    (sameText : gatheredAll "" content' = gatheredAll "" children') :
    (Relation.ReflTransGen parser.DropsComment children children' →
      (parser.parse files source').map Blueprint.tree =
        (parser.parse files source).map Blueprint.tree) ∧
    ∀ gap, parser.Deletes .root children children' gap →
      instructionsOfAll (fun _ => true) (before ++ .element name attributes children :: after) = [] →
      ∀ blueprint, parser.parse files source = .ok blueprint →
        ((parser.parse files source').map Blueprint.tree = .ok blueprint.tree ↔ gap.Joins) := by
  have treeOf_eq : parser.treeOf files source.url
        ⟨before ++ .element name attributes content' :: after⟩ =
      parser.treeOf files source.url ⟨before ++ .element name attributes children' :: after⟩ := by
    apply treeOf_eq_of_sameBelow handlers
    refine .of_eq ?_
    rw [← parseNodes_gathered.2 "" content', sameText, parseNodes_gathered.2]
  have treeOf_of_dropped : Relation.ReflTransGen parser.DropsComment children children' →
      parser.treeOf files source.url ⟨before ++ .element name attributes children' :: after⟩ =
        parser.treeOf files source.url
          ⟨before ++ .element name attributes children :: after⟩ := by
    intro dropped
    exact (treeOf_eq_of_sameBelow handlers (sameBelow_of_dropped handlers dropped) _ _ _ _ _).symm
  rw [parse_map_tree isDocument', parse_map_tree isDocument, sameUrl, treeOf_eq]
  refine ⟨treeOf_of_dropped, ?_⟩
  intro gap deletes noInstructions blueprint parsed
  have read : parser.treeOf files source.url
      ⟨before ++ .element name attributes children :: after⟩ = .ok blueprint.tree := by
    rw [← parse_map_tree isDocument, parsed]
    rfl
  constructor
  · intro read'
    obtain ⟨asideBefore, asideAfter⟩ :=
      Markup.Document.aside_of_parse (PageSource.document_eq_ok_iff.mp isDocument)
    exact joins_of_sameTree asideBefore asideAfter noInstructions deletes read read'
  · intro joins
    exact (treeOf_of_dropped (.single ⟨gap, deletes, joins⟩)).trans read

/-- Text on both sides of a comment, alone in an element. -/
private def commented (name : Markup.Name) : List Markup.Node :=
  [.element name [] [.text "a", .comment " c ", .text "b"]]

private def uncommented (name : Markup.Name) : List Markup.Node :=
  [.element name [] [.text "a", .text "b"]]

private theorem deletes_commented (name : Markup.Name) :
    (new .core).Deletes .root (commented name) (uncommented name)
      ⟨Enclosure.below (new .core) name .root, "a", "b"⟩ :=
  .inside [] name [] [] (.here _ [.text "a"] " c " [.text "b"])

private theorem content_of_core :
    (∃ definition, Enclosure.below (new .core) ⟨none, "label", .unbound⟩ .root =
        .element definition ∧ definition.content = .asAttribute) ∧
      ∃ definition, Enclosure.below (new .core) ⟨none, "div", .unbound⟩ .root =
        .element definition ∧ definition.content = .asChild := by
  have ofEnclosure : ∀ {enclosure : Enclosure} {content : ContentHandling},
      enclosure.definition?.map Definition.content = some content →
        ∃ definition, enclosure = .element definition ∧ definition.content = content := by
    intro enclosure content known
    cases enclosure with
    | element definition => exact ⟨definition, rfl, Option.some.inj known⟩
    | root => cases known
    | unread => cases known
  exact ⟨ofEnclosure (by decide +kernel), ofEnclosure (by decide +kernel)⟩

/-- In a label, the texts around a comment are one text; in a block, they are two elements. -/
theorem comment_is_dropped_in_label_but_not_in_block :
    ((new .core).parse .empty (.ofText "<fsp><label>ab</label></fsp>")).map Blueprint.tree =
      ((new .core).parse .empty (.ofText "<fsp><label>a<!-- c -->b</label></fsp>")).map
        Blueprint.tree ∧
    ∃ blueprint, (new .core).parse .empty (.ofText "<fsp><div>a<!-- c -->b</div></fsp>") =
        .ok blueprint ∧
      ((new .core).parse .empty (.ofText "<fsp><div>ab</div></fsp>")).map Blueprint.tree ≠
        .ok blueprint.tree := by
  have handlers : (new .core).HandlersExtend := handlersExtend_of_builtIn rfl
  obtain ⟨⟨label, isLabel, labelContent⟩, block, isBlock, blockContent⟩ := content_of_core
  constructor
  · have isDocument : (PageSource.ofText "<fsp><label>a<!-- c -->b</label></fsp>").document =
        .ok ⟨[] ++ .element ⟨none, "fsp", .unbound⟩ []
          (commented ⟨none, "label", .unbound⟩) :: []⟩ := by rfl
    have isDocument' : (PageSource.ofText "<fsp><label>ab</label></fsp>").document =
        .ok ⟨[] ++ .element ⟨none, "fsp", .unbound⟩ []
          [.element ⟨none, "label", .unbound⟩ [] [.text "ab"]] :: []⟩ := by rfl
    apply (@comments_are_dropped_where_texts_join (new .core) handlers .empty
      (.ofText "<fsp><label>a<!-- c -->b</label></fsp>") (.ofText "<fsp><label>ab</label></fsp>")
      rfl [] [] _ _ _ (uncommented ⟨none, "label", .unbound⟩) _ isDocument isDocument' rfl).1
    refine .single ⟨_, deletes_commented ⟨none, "label", .unbound⟩, ?_⟩
    rw [isLabel]
    simp only [Gap.Joins, labelContent]
    decide +kernel
  · have isDocument : (PageSource.ofText "<fsp><div>a<!-- c -->b</div></fsp>").document =
        .ok ⟨[] ++ .element ⟨none, "fsp", .unbound⟩ []
          (commented ⟨none, "div", .unbound⟩) :: []⟩ := by rfl
    have isDocument' : (PageSource.ofText "<fsp><div>ab</div></fsp>").document =
        .ok ⟨[] ++ .element ⟨none, "fsp", .unbound⟩ []
          [.element ⟨none, "div", .unbound⟩ [] [.text "ab"]] :: []⟩ := by rfl
    have isRead : ((new .core).parse .empty
        (.ofText "<fsp><div>a<!-- c -->b</div></fsp>")).toOption.isSome = true := by
      decide +kernel
    obtain ⟨blueprint, isSome⟩ := Option.isSome_iff_exists.mp isRead
    have parsed := eq_ok_of_toOption isSome
    have exactly := (@comments_are_dropped_where_texts_join (new .core) handlers .empty
      (.ofText "<fsp><div>a<!-- c -->b</div></fsp>") (.ofText "<fsp><div>ab</div></fsp>")
      rfl [] [] _ _ _ (uncommented ⟨none, "div", .unbound⟩) _ isDocument isDocument' rfl).2
    refine ⟨blueprint, parsed, ?_⟩
    intro same
    have joins := (exactly _ (deletes_commented ⟨none, "div", .unbound⟩) rfl _ parsed).mp same
    rw [isBlock] at joins
    simp only [Gap.Joins, blockContent] at joins
    revert joins
    decide +kernel

/-- A comment in the text of a block makes two elements of it where there is one without. -/
theorem comment_divides_text :
    ((new .core).parse .empty (.ofText "<fsp><div>a<!-- c -->b</div></fsp>")).map
        Blueprint.tree ≠
      ((new .core).parse .empty (.ofText "<fsp><div>ab</div></fsp>")).map Blueprint.tree := by
  have sizes :
      ((((new .core).parse .empty (.ofText "<fsp><div>a<!-- c -->b</div></fsp>")).map
          Blueprint.tree).map PageTree.size).toOption = some 4 ∧
        ((((new .core).parse .empty (.ofText "<fsp><div>ab</div></fsp>")).map
          Blueprint.tree).map PageTree.size).toOption = some 3 := by
    decide +kernel
  intro same
  rw [same, sizes.2] at sizes
  cases sizes.1

end PageParser

end LivePage
