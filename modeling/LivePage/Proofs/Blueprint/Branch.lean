import LivePage.Proofs.Component.Admission

/-!
Contract: trees of elements without numbers, and their layout in a page tree.

Owns:
- branches: an element with all below it;
- the layout of a branch in document order, with numbers, links and counts;
- contributions, the pieces in which content reaches the element around it, on a
  branch and on a page tree, and the agreement of the two.

Does not own: the markup that contributions come from.
-/

namespace LivePage

/-- What an element holds apart from its place among other elements. -/
structure Label where
  definition : Option Definition
  attributes : Dict String
  arguments : List Json
  tagLibraries : Dict TagLibrary

namespace Label

/-- Adds text at the end of the content attribute. -/
def appendText (label : Label) (text : String) : Label :=
  { label with
    attributes := label.attributes.insert Definition.contentAttribute
      ((label.attributes.get? Definition.contentAttribute).getD "" ++ text) }

def addLibrary (label : Label) (library : TagLibrary) : Label :=
  { label with
    tagLibraries := label.tagLibraries.insert library.libraryPrefix library }

end Label

/-- An element with all elements below it. -/
inductive Branch where
  | node (label : Label) (children : List Branch)

/-- A piece of content, as the element around it takes it. -/
inductive Contribution where
  | child (branch : Branch)
  /-- Text at the end of the content attribute. -/
  | text (text : String)
  | library (library : TagLibrary)

namespace Branch

def label : Branch → Label
  | node label _ => label

def children : Branch → List Branch
  | node _ children => children

def tag (branch : Branch) : String :=
  Definition.parentTag branch.label.definition

/-- A property of all branches, shown with the property of all children at hand. -/
theorem induct {holds : Branch → Prop}
    (node : ∀ label children, (∀ child ∈ children, holds child) → holds (node label children)) :
    ∀ branch, holds branch := by
  intro branch
  induction branch using Branch.rec with
  | node label children all => exact node label children all
  | nil =>
      intro child member
      simp at member
  | cons head rest headHolds restHold =>
      intro child member
      rcases List.mem_cons.mp member with isHead | inRest
      · exact isHead ▸ headHolds
      · exact restHold child inRest

/-! ## Layout -/

mutual

/-- The number of elements. -/
def size : Branch → Nat
  | node _ children => sizeAll children + 1

def sizeAll : List Branch → Nat
  | [] => 0
  | branch :: rest => branch.size + sizeAll rest

end

/-- The numbers of branches that follow one another, the first one being given. -/
def numbers (first : Nat) : List Branch → List Nat
  | [] => []
  | branch :: rest => first :: numbers (first + branch.size) rest

/-- The uppermost element of a branch. Its children come right behind it. -/
def element (number : Nat) (parent : Option Nat) (branch : Branch) : Element where
  definition := branch.label.definition
  parent := parent
  children := numbers (number + 1) branch.children
  childCounts := Dict.tally (branch.children.map tag)
  attributes := branch.label.attributes
  arguments := branch.label.arguments
  tagLibraries := branch.label.tagLibraries

mutual

/-- The elements of a branch in document order, numbered from the given number on. -/
def layOut (number : Nat) (parent : Option Nat) : Branch → List Element
  | node label children =>
      (node label children).element number parent :: layOutAll (number + 1) number children

def layOutAll (number parent : Nat) : List Branch → List Element
  | [] => []
  | branch :: rest =>
      branch.layOut number (some parent) ++ layOutAll (number + branch.size) parent rest

end

theorem size_eq (branch : Branch) : branch.size = sizeAll branch.children + 1 := by
  cases branch
  rfl

theorem layOut_eq_cons (branch : Branch) (number : Nat) (parent : Option Nat) :
    branch.layOut number parent =
      branch.element number parent :: layOutAll (number + 1) number branch.children := by
  cases branch
  rfl

private theorem length_layOutAll_of_all {branches : List Branch}
    (all : ∀ branch ∈ branches, ∀ number parent,
      (branch.layOut number parent).length = branch.size) (number parent : Nat) :
    (layOutAll number parent branches).length = sizeAll branches := by
  induction branches generalizing number with
  | nil => rfl
  | cons head rest inductionHypothesis =>
      rw [layOutAll, sizeAll, List.length_append, all head (by simp),
        inductionHypothesis (fun branch member => all branch (List.mem_cons_of_mem _ member))]

theorem length_layOut (branch : Branch) (number : Nat) (parent : Option Nat) :
    (branch.layOut number parent).length = branch.size := by
  induction branch using induct generalizing number parent with
  | node label children inductionHypothesis =>
      rw [layOut, List.length_cons, size, length_layOutAll_of_all inductionHypothesis]

theorem numbers_append (first : Nat) (left right : List Branch) :
    numbers first (left ++ right) = numbers first left ++ numbers (first + sizeAll left) right := by
  induction left generalizing first with
  | nil => simp [numbers, sizeAll]
  | cons head rest inductionHypothesis =>
      rw [List.cons_append, numbers, numbers, sizeAll, inductionHypothesis, Nat.add_assoc,
        List.cons_append]

theorem layOutAll_append (number parent : Nat) (left right : List Branch) :
    layOutAll number parent (left ++ right) =
      layOutAll number parent left ++ layOutAll (number + sizeAll left) parent right := by
  induction left generalizing number with
  | nil => simp [layOutAll, sizeAll]
  | cons head rest inductionHypothesis =>
      rw [List.cons_append, layOutAll, layOutAll, sizeAll, inductionHypothesis, Nat.add_assoc,
        List.append_assoc]

/-! ## Contributions to a branch -/

/-- A branch without children, attributes, arguments and tag libraries. -/
def bare (definition : Option Definition) : Branch :=
  node ⟨definition, .empty, [], .empty⟩ []

def withChild (branch child : Branch) : Branch :=
  node branch.label (branch.children ++ [child])

/-- Takes a piece of content in at the end. -/
def take (branch : Branch) : Contribution → Branch
  | .child child => branch.withChild child
  | .text text => node (branch.label.appendText text) branch.children
  | .library library => node (branch.label.addLibrary library) branch.children

/-- The branch among the contributions of this kind. -/
def ofContribution? : Contribution → Option Branch
  | .child branch => some branch
  | _ => none

/-- The tags of the children among contributions. -/
def childTags (contributions : List Contribution) : List String :=
  (contributions.filterMap ofContribution?).map tag

theorem childTags_append (first second : List Contribution) :
    childTags (first ++ second) = childTags first ++ childTags second := by
  simp [childTags]

theorem definition_take (branch : Branch) (contribution : Contribution) :
    (branch.take contribution).label.definition = branch.label.definition := by
  cases contribution <;> rfl

theorem definition_foldl_take (contributions : List Contribution) (branch : Branch) :
    (contributions.foldl take branch).label.definition = branch.label.definition := by
  induction contributions generalizing branch with
  | nil => rfl
  | cons head rest inductionHypothesis =>
      rw [List.foldl_cons, inductionHypothesis, definition_take]

theorem tag_take (branch : Branch) (contribution : Contribution) :
    (branch.take contribution).tag = branch.tag := by
  rw [tag, definition_take, tag]

theorem children_foldl_take (contributions : List Contribution) (branch : Branch) :
    (contributions.foldl take branch).children =
      branch.children ++ contributions.filterMap ofContribution? := by
  induction contributions generalizing branch with
  | nil => simp
  | cons head rest inductionHypothesis =>
      rw [List.foldl_cons, inductionHypothesis]
      cases head with
      | child child => simp [take, withChild, children, ofContribution?]
      | text text => rfl
      | library library => rfl

/-- The uppermost element has no violations exactly when the tags of its children
keep to its ranges. -/
theorem violations_element_eq_nil_iff (branch : Branch) (number : Nat) (parent : Option Nat) :
    (branch.element number parent).violations = [] ↔
      ∀ definition, branch.label.definition = some definition →
        definition.CountsFit (branch.children.map tag) := by
  unfold Element.violations element
  cases branch.label.definition with
  | none => simp
  | some definition => simp [Definition.violations_tally_eq_nil_iff]

/-- A new last child is linked and counted, and laid out behind all others. -/
theorem layOut_withChild (branch child : Branch) (number : Nat) (parent : Option Nat) :
    (branch.withChild child).layOut number parent =
      (branch.element number parent).withChild (number + branch.size) child.tag ::
        (layOutAll (number + 1) number branch.children ++
          child.layOut (number + branch.size) (some number)) := by
  have behind : number + branch.size = number + 1 + sizeAll branch.children := by
    rw [size_eq]
    omega
  rw [layOut_eq_cons, withChild, children, layOutAll_append, ← behind]
  congr 1
  · simp only [element, label, children, Element.withChild, Element.childCount, numbers_append,
      List.map_append, List.map_cons, List.map_nil, Dict.tally_append_singleton, numbers]
    rw [behind]
    rfl
  · simp [layOutAll]

end Branch

/-! ## Contributions to a page tree -/

namespace PageTree

/-- The tree that consists of one branch. -/
def ofBranch (branch : Branch) : PageTree :=
  ⟨(branch.layOut 0 none).toArray⟩

/-- Adds a branch as the last child of an element. -/
def addBranch (tree : PageTree) (parent : Nat) (branch : Branch) : PageTree :=
  PageTree.modify ⟨tree.elements ++ (branch.layOut tree.size (some parent)).toArray⟩ parent
    (fun element => element.withChild tree.size branch.tag)

/-- Hands a piece of content to an element. -/
def contribute (number : Nat) (tree : PageTree) : Contribution → PageTree
  | .child branch => tree.addBranch number branch
  | .text text => tree.appendAttribute number Definition.contentAttribute text
  | .library library => tree.addTagLibrary number library

/-- A tree whose last elements are those of a branch. -/
def endingWith (front : List Element) (parent : Option Nat) (branch : Branch) : PageTree :=
  ⟨(front ++ branch.layOut front.length parent).toArray⟩

theorem ofBranch_eq_endingWith (branch : Branch) : ofBranch branch = endingWith [] none branch :=
  rfl

private theorem modify_append_cons {α : Type u} (front back : List α) (item : α)
    (change : α → α) :
    (front ++ item :: back).modify front.length change = front ++ change item :: back := by
  induction front with
  | nil => rfl
  | cons head rest inductionHypothesis =>
      rw [List.cons_append, List.length_cons, List.modify_succ_cons, inductionHypothesis,
        List.cons_append]

theorem modify_mk (elements : List Element) (number : Nat) (change : Element → Element) :
    PageTree.modify ⟨elements.toArray⟩ number change = ⟨(elements.modify number change).toArray⟩ := by
  simp [PageTree.modify]

/-- Changing the uppermost element of the last branch is changing that branch. -/
theorem modify_endingWith {front : List Element} {parent : Option Nat} {before after : Branch}
    {change : Element → Element} (sameChildren : after.children = before.children)
    (changed : change (before.element front.length parent) = after.element front.length parent) :
    (endingWith front parent before).modify front.length change =
      endingWith front parent after := by
  rw [endingWith, endingWith, modify_mk, Branch.layOut_eq_cons, modify_append_cons, changed,
    Branch.layOut_eq_cons, sameChildren]

theorem size_endingWith (front : List Element) (parent : Option Nat) (branch : Branch) :
    (endingWith front parent branch).size = front.length + branch.size := by
  simp [endingWith, size, Branch.length_layOut]

/-- What the last branch takes in stays inside it. -/
theorem contribute_endingWith (front : List Element) (parent : Option Nat) (branch : Branch)
    (contribution : Contribution) :
    (endingWith front parent branch).contribute front.length contribution =
      endingWith front parent (branch.take contribution) := by
  cases contribution with
  | text text => exact modify_endingWith rfl rfl
  | library library => exact modify_endingWith rfl rfl
  | child child =>
      rw [contribute, addBranch, size_endingWith, endingWith, List.append_toArray, modify_mk,
        Branch.layOut_eq_cons, List.append_assoc, List.cons_append, modify_append_cons,
        endingWith, Branch.take, Branch.layOut_withChild]

theorem foldl_contribute_endingWith (front : List Element) (parent : Option Nat)
    (contributions : List Contribution) (branch : Branch) :
    contributions.foldl (contribute front.length) (endingWith front parent branch) =
      endingWith front parent (contributions.foldl Branch.take branch) := by
  induction contributions generalizing branch with
  | nil => rfl
  | cons head rest inductionHypothesis =>
      rw [List.foldl_cons, contribute_endingWith, inductionHypothesis, List.foldl_cons]

theorem foldl_contribute_empty (contributions : List Contribution) :
    contributions.foldl (contribute root) empty =
      ofBranch (contributions.foldl Branch.take (.bare none)) :=
  foldl_contribute_endingWith [] none contributions (.bare none)

/-! ### Growth of a tree -/

private theorem modify_append_left {α : Type u} {number : Nat} {front : List α}
    (inside : number < front.length) (back : List α) (change : α → α) :
    (front ++ back).modify number change = front.modify number change ++ back := by
  induction front generalizing number with
  | nil => simp at inside
  | cons head rest inductionHypothesis =>
      cases number with
      | zero => rfl
      | succ number =>
          rw [List.cons_append, List.modify_succ_cons, List.modify_succ_cons,
            inductionHypothesis (Nat.lt_of_succ_lt_succ inside), List.cons_append]

/-- The elements in front of a new last child of an element. -/
def frontFor (tree : PageTree) (parent : Nat) (tag : String) : List Element :=
  tree.elements.toList.modify parent (fun element => element.withChild tree.size tag)

theorem length_frontFor (tree : PageTree) (parent : Nat) (tag : String) :
    (tree.frontFor parent tag).length = tree.size := by
  simp [frontFor, size]

theorem addBranch_eq_endingWith {tree : PageTree} {parent : Nat} (inside : parent < tree.size)
    (branch : Branch) :
    tree.addBranch parent branch =
      endingWith (tree.frontFor parent branch.tag) (some parent) branch := by
  have asLists : tree.elements ++ (branch.layOut tree.size (some parent)).toArray =
      (tree.elements.toList ++ branch.layOut tree.size (some parent)).toArray := by
    simp
  rw [addBranch, asLists, modify_mk, modify_append_left inside, endingWith, length_frontFor]
  rfl

/-- What is handed to the element added last stays inside its branch. -/
theorem contribute_addBranch {tree : PageTree} {parent : Nat} (inside : parent < tree.size)
    (branch : Branch) (contribution : Contribution) :
    (tree.addBranch parent branch).contribute tree.size contribution =
      tree.addBranch parent (branch.take contribution) := by
  have step := contribute_endingWith (tree.frontFor parent branch.tag) (some parent) branch
    contribution
  rw [length_frontFor] at step
  rw [addBranch_eq_endingWith inside, step, addBranch_eq_endingWith inside, Branch.tag_take]

theorem foldl_contribute_addBranch {tree : PageTree} {parent : Nat} (inside : parent < tree.size)
    (contributions : List Contribution) (branch : Branch) :
    contributions.foldl (contribute tree.size) (tree.addBranch parent branch) =
      tree.addBranch parent (contributions.foldl Branch.take branch) := by
  induction contributions generalizing branch with
  | nil => rfl
  | cons head rest inductionHypothesis =>
      rw [List.foldl_cons, contribute_addBranch inside, inductionHypothesis, List.foldl_cons]

/-- Changing the element added last, its children and tag apart, is adding another
branch in the first place. -/
theorem modify_addBranch {tree : PageTree} {parent : Nat} (inside : parent < tree.size)
    {before after : Branch} {change : Element → Element} (sameTag : after.tag = before.tag)
    (sameChildren : after.children = before.children)
    (changed : change (before.element tree.size (some parent)) =
      after.element tree.size (some parent)) :
    (tree.addBranch parent before).modify tree.size change = tree.addBranch parent after := by
  have inFront := length_frontFor tree parent before.tag
  rw [← inFront] at changed
  have step := modify_endingWith sameChildren changed
  rw [inFront] at step
  rw [addBranch_eq_endingWith inside, step, addBranch_eq_endingWith inside, sameTag]

theorem addChild_eq_ok_iff (tree next : PageTree) (parent : Nat) (child : Definition) :
    tree.addChild parent child = .ok next ↔
      (tree.element parent).accept child = .ok () ∧
        next = tree.addBranch parent (.bare (some child)) := by
  have added : PageTree.modify
      ⟨tree.elements.push (Element.bare (some child) (some parent))⟩ parent
        (fun element => element.withChild tree.size child.tag) =
      tree.addBranch parent (.bare (some child)) := by
    rw [addBranch, Array.push_eq_append]
    rfl
  unfold addChild
  cases (tree.element parent).accept child with
  | error reason => simp
  | ok accepted => simp [added, eq_comm]

/-! ### Elements of a grown tree -/

theorem element_mk (elements : List Element) (number : Nat) :
    PageTree.element ⟨elements.toArray⟩ number =
      (elements[number]?).getD (Element.bare none none) := by
  simp [element, element?]

theorem size_addBranch {tree : PageTree} {parent : Nat} (inside : parent < tree.size)
    (branch : Branch) : (tree.addBranch parent branch).size = tree.size + branch.size := by
  rw [addBranch_eq_endingWith inside, size_endingWith, length_frontFor]

theorem element_addBranch {tree : PageTree} {parent number : Nat} (inside : parent < tree.size)
    (numberInside : number < tree.size) (branch : Branch) :
    (tree.addBranch parent branch).element number =
      if parent = number then (tree.element number).withChild tree.size branch.tag
      else tree.element number := by
  have inFront : number < (tree.frontFor parent branch.tag).length := by
    rw [length_frontFor]
    exact numberInside
  rw [addBranch_eq_endingWith inside, endingWith, element_mk, List.getElem?_append_left inFront,
    frontFor, List.getElem?_modify]
  have present : tree.elements.toList[number]? = some (tree.element number) := by
    have bound : number < tree.elements.size := numberInside
    simp [element, element?, bound]
  rw [present]
  split <;> rfl

theorem size_modify (tree : PageTree) (number : Nat) (change : Element → Element) :
    (tree.modify number change).size = tree.size := by
  simp [modify, size]

theorem element_modify {tree : PageTree} {number : Nat} (inside : number < tree.size)
    (changed : Nat) (change : Element → Element) :
    (tree.modify changed change).element number =
      if changed = number then change (tree.element number) else tree.element number := by
  have bound : number < tree.elements.size := inside
  rw [element, element?, modify, Array.getElem?_modify]
  split <;> simp [element, element?, bound]

theorem element_addBranch_size {tree : PageTree} {parent : Nat} (inside : parent < tree.size)
    (branch : Branch) :
    (tree.addBranch parent branch).element tree.size = branch.element tree.size (some parent) := by
  have atFront := length_frontFor tree parent branch.tag
  rw [addBranch_eq_endingWith inside, endingWith, element_mk,
    List.getElem?_append_right (Nat.le_of_eq atFront), atFront, Branch.layOut_eq_cons,
    Nat.sub_self]
  rfl

theorem validate_eq_ok_iff (tree : PageTree) (number : Nat) :
    tree.validate number = .ok () ↔ (tree.element number).violations = [] := by
  simp only [validate]
  cases (tree.element number).violations <;> simp

theorem validate_addBranch_eq_ok_iff {tree : PageTree} {parent : Nat} (inside : parent < tree.size)
    (branch : Branch) :
    (tree.addBranch parent branch).validate tree.size = .ok () ↔
      ∀ definition, branch.label.definition = some definition →
        definition.CountsFit (branch.children.map Branch.tag) := by
  rw [validate_eq_ok_iff, element_addBranch_size inside, Branch.violations_element_eq_nil_iff]

section Contributions

variable {tree : PageTree} {parent number : Nat}

theorem size_le_contribute (inside : parent < tree.size) (contribution : Contribution) :
    tree.size ≤ (tree.contribute parent contribution).size := by
  cases contribution with
  | text text => exact Nat.le_of_eq (size_modify _ _ _).symm
  | library library => exact Nat.le_of_eq (size_modify _ _ _).symm
  | child branch =>
      rw [contribute, size_addBranch inside]
      omega

theorem definition_contribute (inside : parent < tree.size) (numberInside : number < tree.size)
    (contribution : Contribution) :
    ((tree.contribute parent contribution).element number).definition =
      (tree.element number).definition := by
  cases contribution with
  | text text =>
      rw [contribute, appendAttribute, element_modify numberInside]
      split <;> rfl
  | library library =>
      rw [contribute, addTagLibrary, element_modify numberInside]
      split <;> rfl
  | child branch =>
      rw [contribute, element_addBranch inside numberInside]
      split <;> rfl

private theorem childCount_withChild (element : Element) (number : Nat) (added tag : String) :
    (element.withChild number added).childCount tag = element.childCount tag + [added].count tag := by
  unfold Element.withChild Element.childCount
  rw [Dict.get?_insert]
  by_cases same : tag = added
  · subst same
    simp
  · simp [same, Ne.symm same]

theorem childCount_contribute (inside : parent < tree.size) (contribution : Contribution)
    (tag : String) :
    ((tree.contribute parent contribution).element parent).childCount tag =
      (tree.element parent).childCount tag +
        (Branch.childTags [contribution]).count tag := by
  cases contribution with
  | text text =>
      rw [contribute, appendAttribute, element_modify inside, if_pos rfl]
      rfl
  | library library =>
      rw [contribute, addTagLibrary, element_modify inside, if_pos rfl]
      rfl
  | child branch =>
      rw [contribute, element_addBranch inside inside, if_pos rfl, childCount_withChild]
      rfl

theorem size_le_foldl_contribute (inside : parent < tree.size)
    (contributions : List Contribution) :
    tree.size ≤ (contributions.foldl (contribute parent) tree).size := by
  induction contributions generalizing tree with
  | nil => exact Nat.le_refl _
  | cons head rest inductionHypothesis =>
      have grown := size_le_contribute inside head
      exact Nat.le_trans grown (inductionHypothesis (Nat.lt_of_lt_of_le inside grown))

theorem definition_foldl_contribute (inside : parent < tree.size)
    (numberInside : number < tree.size) (contributions : List Contribution) :
    ((contributions.foldl (contribute parent) tree).element number).definition =
      (tree.element number).definition := by
  induction contributions generalizing tree with
  | nil => rfl
  | cons head rest inductionHypothesis =>
      have grown := size_le_contribute inside head
      rw [List.foldl_cons, inductionHypothesis (Nat.lt_of_lt_of_le inside grown)
        (Nat.lt_of_lt_of_le numberInside grown), definition_contribute inside numberInside]

theorem childCount_foldl_contribute (inside : parent < tree.size)
    (contributions : List Contribution) (tag : String) :
    ((contributions.foldl (contribute parent) tree).element parent).childCount tag =
      (tree.element parent).childCount tag + (Branch.childTags contributions).count tag := by
  induction contributions generalizing tree with
  | nil => rfl
  | cons head rest inductionHypothesis =>
      have grown := size_le_contribute inside head
      have split : Branch.childTags (head :: rest) =
          Branch.childTags [head] ++ Branch.childTags rest :=
        Branch.childTags_append [head] rest
      rw [List.foldl_cons, inductionHypothesis (Nat.lt_of_lt_of_le inside grown),
        childCount_contribute inside, split, List.count_append, Nat.add_assoc]

end Contributions

end PageTree

end LivePage
