import LivePage.Proofs.Blueprint.Branch
import Mathlib.Data.List.Nodup
import Mathlib.Data.List.Perm.Subperm

/-!
Contract: the links between the elements of a page tree.

Owns:
- trees that the operations of page trees make, in whatever order they are used;
- what one more child changes in a tree;
- linked trees, in which every element but the root stands once among the children of
  an earlier one;
- the elements below an element, each in front of its own content, and that taking elements
  off a stack takes exactly these.

Does not own: who uses the operations.
-/

namespace LivePage.PageTree

/-! ## Trees made by operations -/

/-- The trees that come about by adding children to elements, and by what else may be
written into elements. -/
inductive Made : PageTree → Prop
  | empty : Made empty
  | addChild {tree next : PageTree} {parent : Nat} {child : Definition} (made : Made tree)
      (inside : parent < tree.size) (added : tree.addChild parent child = .ok next) : Made next
  | setAttribute {tree : PageTree} (made : Made tree) (number : Nat) (name value : String) :
      Made (tree.setAttribute number name value)
  | appendAttribute {tree : PageTree} (made : Made tree) (number : Nat) (name value : String) :
      Made (tree.appendAttribute number name value)
  | pushArgument {tree : PageTree} (made : Made tree) (number : Nat) (argument : Json) :
      Made (tree.pushArgument number argument)
  | addTagLibrary {tree : PageTree} (made : Made tree) (number : Nat) (library : TagLibrary) :
      Made (tree.addTagLibrary number library)

/-- Every element but the root has a definition and a place, and links lead to later
elements and back. -/
structure Linked (tree : PageTree) : Prop where
  nonempty : root < tree.size
  defined : ∀ {number}, root < number → number < tree.size →
    ∃ definition, (tree.element number).definition = some definition
  listed : ∀ {number child}, child ∈ (tree.element number).children →
    number < child ∧ child < tree.size ∧ (tree.element child).parent = some number
  placed : ∀ {number}, root < number → number < tree.size →
    ∃ parent, (tree.element number).parent = some parent ∧
      (tree.element parent).children.count number = 1

theorem element_of_outside {tree : PageTree} {number : Nat} (outside : tree.size ≤ number) :
    tree.element number = Element.bare none none := by
  have absent : tree.elements[number]? = none := Array.getElem?_eq_none outside
  rw [element, element?, absent]
  rfl

/-- A change of elements that a view does not see is not seen in the tree. -/
theorem view_modify {α : Type u} (tree : PageTree) (changed : Nat) {change : Element → Element}
    (view : Element → α) (same : ∀ element, view (change element) = view element) (number : Nat) :
    view ((tree.modify changed change).element number) = view (tree.element number) := by
  by_cases inside : number < tree.size
  · rw [element_modify inside]
    split
    · exact same _
    · rfl
  · have outside := Nat.le_of_not_lt inside
    have size_eq := size_modify tree changed change
    rw [element_of_outside outside, element_of_outside (size_eq ▸ outside)]

theorem lt_size_of_mem_children {tree : PageTree} {number child : Nat}
    (member : child ∈ (tree.element number).children) : number < tree.size := by
  by_cases inside : number < tree.size
  · exact inside
  · rw [element_of_outside (Nat.le_of_not_lt inside)] at member
    cases member

/-! ## One more child -/

theorem size_addBare {tree : PageTree} {parent : Nat} (inside : parent < tree.size)
    (child : Definition) : (tree.addBranch parent (.bare (some child))).size = tree.size + 1 :=
  size_addBranch inside _

/-- Behind the new element there is nothing. -/
theorem element_addBare_of_lt {tree : PageTree} {parent number : Nat} (inside : parent < tree.size)
    (child : Definition) (outside : tree.size < number) :
    (tree.addBranch parent (.bare (some child))).element number = Element.bare none none := by
  refine element_of_outside ?_
  rw [size_addBare inside]
  exact outside

/-- A tree in which an element has got one more child, at the end of the tree. -/
structure Gains (tree : PageTree) (parent : Nat) (child : Definition) (next : PageTree) :
    Prop where
  parent_eq : ∀ {number}, number < tree.size →
    (next.element number).parent = (tree.element number).parent
  definition_eq : ∀ {number}, number < tree.size →
    (next.element number).definition = (tree.element number).definition
  newDefinition : (next.element tree.size).definition = some child
  children_eq : ∀ {number}, number < tree.size → (next.element number).children =
    (tree.element number).children ++ if parent = number then [tree.size] else []
  childCount_eq : ∀ {number}, number < tree.size → ∀ tag, (next.element number).childCount tag =
    (tree.element number).childCount tag + if parent = number then [child.tag].count tag else 0
  /-- The new element and what is outside of the tree. -/
  childless : ∀ {number}, tree.size ≤ number →
    (next.element number).children = [] ∧ ∀ tag, (next.element number).childCount tag = 0

theorem gains_addBranch {tree : PageTree} {parent : Nat} (inside : parent < tree.size)
    (child : Definition) :
    tree.Gains parent child (tree.addBranch parent (.bare (some child))) := by
  have isNew := element_addBranch_size inside (.bare (some child))
  have before := fun {number} (numberInside : number < tree.size) =>
    element_addBranch inside numberInside (.bare (some child))
  refine ⟨?_, ?_, ?_, ?_, ?_, ?_⟩
  · intro number numberInside
    rw [before numberInside]
    split <;> rfl
  · intro number numberInside
    rw [before numberInside]
    split <;> rfl
  · rw [isNew]
    rfl
  · intro number numberInside
    rw [before numberInside]
    split
    · rfl
    · exact (List.append_nil _).symm
  · intro number numberInside tag
    split
    · next isParent =>
        rw [← isParent]
        exact childCount_contribute inside (.child (.bare (some child))) tag
    · next notParent =>
        rw [before numberInside, if_neg notParent]
        rfl
  · intro number outside
    by_cases isLast : number = tree.size
    · rw [isLast, isNew]
      exact ⟨rfl, fun _ => rfl⟩
    · rw [element_addBare_of_lt inside child (by omega)]
      exact ⟨rfl, fun _ => rfl⟩

/-! ## Linked trees -/

namespace Linked

variable {tree : PageTree}

theorem empty : PageTree.empty.Linked where
  nonempty := Nat.zero_lt_one
  defined := by
    intro number notRoot inside
    have isRoot : number = root := Nat.lt_one_iff.mp inside
    omega
  listed := by
    intro number child member
    have isRoot : number = root := Nat.lt_one_iff.mp (lt_size_of_mem_children member)
    rw [isRoot] at member
    cases member
  placed := by
    intro number notRoot inside
    have isRoot : number = root := Nat.lt_one_iff.mp inside
    omega

/-- What is written into an element besides its links does not matter. -/
theorem modify (linked : tree.Linked) (changed : Nat) {change : Element → Element}
    (sameDefinition : ∀ element, (change element).definition = element.definition)
    (sameParent : ∀ element, (change element).parent = element.parent)
    (sameChildren : ∀ element, (change element).children = element.children) :
    (tree.modify changed change).Linked := by
  have size_eq := size_modify tree changed change
  have definition_eq := view_modify tree changed Element.definition sameDefinition
  have parent_eq := view_modify tree changed Element.parent sameParent
  have children_eq := view_modify tree changed Element.children sameChildren
  refine ⟨?_, ?_, ?_, ?_⟩
  · rw [size_eq]
    exact linked.nonempty
  · intro number notRoot inside
    rw [definition_eq]
    exact linked.defined notRoot (size_eq ▸ inside)
  · intro number child member
    rw [children_eq] at member
    rw [size_eq, parent_eq]
    exact linked.listed member
  · intro number notRoot inside
    obtain ⟨parent, isParent, once⟩ := linked.placed notRoot (size_eq ▸ inside)
    refine ⟨parent, (parent_eq number).trans isParent, ?_⟩
    rw [children_eq]
    exact once

theorem addChild (linked : tree.Linked) {next : PageTree} {parent : Nat} {child : Definition}
    (inside : parent < tree.size) (added : tree.addChild parent child = .ok next) :
    next.Linked := by
  obtain ⟨-, rfl⟩ := (addChild_eq_ok_iff tree next parent child).mp added
  have size_eq := size_addBare inside child
  have isNew := element_addBranch_size inside (.bare (some child))
  have gains := gains_addBranch inside child
  refine ⟨?_, ?_, ?_, ?_⟩
  · rw [size_eq]
    exact Nat.succ_pos _
  · intro number notRoot below
    rw [size_eq] at below
    by_cases isLast : number = tree.size
    · rw [isLast]
      exact ⟨child, gains.newDefinition⟩
    · rw [gains.definition_eq (by omega)]
      exact linked.defined notRoot (by omega)
  · intro number other member
    have numberInside : number < tree.size := by
      by_cases inside : number < tree.size
      · exact inside
      · rw [(gains.childless (Nat.le_of_not_lt inside)).1] at member
        cases member
    rw [size_eq]
    rw [gains.children_eq numberInside] at member
    rcases List.mem_append.mp member with isOld | isAdded
    · obtain ⟨later, below, pointsBack⟩ := linked.listed isOld
      exact ⟨later, Nat.lt_succ_of_lt below, (gains.parent_eq below).trans pointsBack⟩
    · split at isAdded
      · next isParent =>
          rw [List.mem_singleton.mp isAdded, isNew, ← isParent]
          exact ⟨inside, Nat.lt_succ_self _, rfl⟩
      · cases isAdded
  · intro number notRoot below
    rw [size_eq] at below
    by_cases isLast : number = tree.size
    · have notListed : tree.size ∉ (tree.element parent).children :=
        fun member => absurd (linked.listed member).2.1 (Nat.lt_irrefl _)
      refine ⟨parent, ?_, ?_⟩
      · rw [isLast, isNew]
        rfl
      · rw [gains.children_eq inside, if_pos rfl, isLast, List.count_append,
          List.count_eq_zero_of_not_mem notListed, List.count_singleton_self]
    · obtain ⟨above, isAbove, once⟩ := linked.placed notRoot (by omega)
      have member : number ∈ (tree.element above).children := List.count_pos_iff.mp (by omega)
      have notAdded : number ∉ if parent = above then [tree.size] else [] := by
        split
        · simpa using isLast
        · exact List.not_mem_nil
      refine ⟨above, (gains.parent_eq (by omega)).trans isAbove, ?_⟩
      rw [gains.children_eq (lt_size_of_mem_children member), List.count_append, once,
        List.count_eq_zero_of_not_mem notAdded]

end Linked

theorem Made.linked {tree : PageTree} (made : tree.Made) : tree.Linked := by
  induction made with
  | empty => exact .empty
  | addChild _ inside added linked => exact linked.addChild inside added
  | setAttribute _ number name value linked =>
      exact linked.modify number (fun _ => rfl) (fun _ => rfl) (fun _ => rfl)
  | appendAttribute _ number name value linked =>
      exact linked.modify number (fun _ => rfl) (fun _ => rfl) (fun _ => rfl)
  | pushArgument _ number argument linked =>
      exact linked.modify number (fun _ => rfl) (fun _ => rfl) (fun _ => rfl)
  | addTagLibrary _ number library linked =>
      exact linked.modify number (fun _ => rfl) (fun _ => rfl) (fun _ => rfl)

/-! ## Elements below an element -/

/-- An element and all below it down to a depth, each in front of its content. -/
def subtreeBy (tree : PageTree) : Nat → Nat → List Nat
  | 0, _ => []
  | depth + 1, number =>
      number :: (tree.element number).children.flatMap (subtreeBy tree depth)

/-- An element and all below it; no tree is deeper than the number of its elements. -/
def subtree (tree : PageTree) (number : Nat) : List Nat :=
  tree.subtreeBy tree.size number

/-- A run that takes elements off a stack, each in front of its children, until nothing is
left, and the elements it takes. -/
inductive Unstacks (tree : PageTree) : List Nat → List Nat → Prop
  | done : Unstacks tree [] []
  | take {number : Nat} {rest taken : List Nat}
      (others : Unstacks tree ((tree.element number).children ++ rest) taken) :
      Unstacks tree (number :: rest) (number :: taken)

/-- With enough fuel, taking elements off a stack is a run. -/
theorem Unstacks.unstack_eq {tree : PageTree} {stack taken : List Nat}
    (run : tree.Unstacks stack taken) {fuel : Nat} (enough : taken.length ≤ fuel) :
    tree.unstack fuel stack = taken := by
  induction run generalizing fuel with
  | done => cases fuel <;> rfl
  | @take number rest taken others inductionHypothesis =>
      obtain ⟨fewer, rfl⟩ : ∃ fewer, fuel = fewer + 1 :=
        ⟨fuel - 1, by rw [List.length_cons] at enough; omega⟩
      rw [unstack, inductionHypothesis (Nat.le_of_succ_le_succ enough)]

namespace Linked

variable {tree : PageTree}

private theorem subtreeBy_eq (linked : tree.Linked) {depth other number : Nat}
    (inside : number < tree.size) (enough : tree.size - number ≤ depth)
    (otherEnough : tree.size - number ≤ other) :
    tree.subtreeBy depth number = tree.subtreeBy other number := by
  induction depth generalizing other number with
  | zero => omega
  | succ depth inductionHypothesis =>
      cases other with
      | zero => omega
      | succ other =>
          rw [subtreeBy, subtreeBy]
          congr 1
          apply List.flatMap_congr
          intro child member
          obtain ⟨later, childInside, -⟩ := linked.listed member
          exact inductionHypothesis childInside (by omega) (by omega)

theorem subtree_eq (linked : tree.Linked) (number : Nat) :
    tree.subtree number =
      number :: (tree.element number).children.flatMap tree.subtree := by
  obtain ⟨depth, isSize⟩ : ∃ depth, tree.size = depth + 1 :=
    ⟨tree.size - 1, by have positive := linked.nonempty; omega⟩
  have unfolded : tree.subtree number =
      number :: (tree.element number).children.flatMap (tree.subtreeBy depth) := by
    rw [subtree, isSize, subtreeBy]
  rw [unfolded]
  congr 1
  apply List.flatMap_congr
  intro child member
  obtain ⟨later, childInside, -⟩ := linked.listed member
  exact linked.subtreeBy_eq childInside (by omega) (Nat.sub_le _ _)

/-- A property of all elements, shown with the property of all children at hand. -/
theorem induct (linked : tree.Linked) {holds : (number : Nat) → number < tree.size → Prop}
    (each : ∀ number inside,
      (∀ child, ∀ member : child ∈ (tree.element number).children,
        holds child (linked.listed member).2.1) → holds number inside)
    (number : Nat) (inside : number < tree.size) : holds number inside := by
  obtain ⟨distance, isDistance⟩ : ∃ distance, tree.size - number = distance := ⟨_, rfl⟩
  induction distance using Nat.strongRecOn generalizing number with
  | ind distance inductionHypothesis =>
      apply each number inside
      intro child member
      obtain ⟨later, childInside, -⟩ := linked.listed member
      exact inductionHypothesis (tree.size - child) (by omega) child childInside rfl

theorem mem_subtree_self (linked : tree.Linked) (number : Nat) :
    number ∈ tree.subtree number := by
  rw [linked.subtree_eq number]
  exact List.mem_cons_self

/-- Below an element there are later ones only. -/
theorem bounds_of_mem_subtree (linked : tree.Linked) {top : Nat} (inside : top < tree.size)
    {number : Nat} (member : number ∈ tree.subtree top) : top ≤ number ∧ number < tree.size := by
  induction top, inside using linked.induct generalizing number with
  | each top inside inductionHypothesis =>
      rw [linked.subtree_eq top] at member
      rcases List.mem_cons.mp member with isTop | isBelow
      · omega
      · obtain ⟨child, isChild, inChild⟩ := List.mem_flatMap.mp isBelow
        have later := (linked.listed isChild).1
        have bounds := inductionHypothesis child isChild inChild
        omega

theorem mem_subtree_of_mem_children (linked : tree.Linked) {top : Nat} (inside : top < tree.size)
    {number child : Nat} (member : number ∈ tree.subtree top)
    (isChild : child ∈ (tree.element number).children) : child ∈ tree.subtree top := by
  induction top, inside using linked.induct generalizing number with
  | each top inside inductionHypothesis =>
      rw [linked.subtree_eq top] at member ⊢
      apply List.mem_cons_of_mem
      rcases List.mem_cons.mp member with isTop | isBelow
      · rw [isTop] at isChild
        exact List.mem_flatMap.mpr ⟨child, isChild, linked.mem_subtree_self child⟩
      · obtain ⟨first, isFirst, inFirst⟩ := List.mem_flatMap.mp isBelow
        exact List.mem_flatMap.mpr ⟨first, isFirst, inductionHypothesis first isFirst inFirst isChild⟩

/-- What is below an element but not the element itself is a child of such an element. -/
theorem exists_parent_of_mem_subtree (linked : tree.Linked) {top : Nat} (inside : top < tree.size)
    {number : Nat} (member : number ∈ tree.subtree top) (notTop : number ≠ top) :
    ∃ parent ∈ tree.subtree top, number ∈ (tree.element parent).children := by
  induction top, inside using linked.induct generalizing number with
  | each top inside inductionHypothesis =>
      rw [linked.subtree_eq top] at member ⊢
      have isBelow := (List.mem_cons.mp member).resolve_left notTop
      obtain ⟨first, isFirst, inFirst⟩ := List.mem_flatMap.mp isBelow
      by_cases same : number = first
      · exact ⟨top, List.mem_cons_self, same ▸ isFirst⟩
      · obtain ⟨parent, inside, isChild⟩ := inductionHypothesis first isFirst inFirst same
        exact ⟨parent, List.mem_cons_of_mem _ (List.mem_flatMap.mpr ⟨first, isFirst, inside⟩), isChild⟩

/-- A child that is below another child of the same element is that child. -/
private theorem eq_of_mem_subtree (linked : tree.Linked) {number first second : Nat}
    (isFirst : first ∈ (tree.element number).children)
    (isSecond : second ∈ (tree.element number).children) (member : first ∈ tree.subtree second) :
    first = second := by
  obtain ⟨later, secondInside, -⟩ := linked.listed isSecond
  by_cases same : first = second
  · exact same
  · obtain ⟨parent, inSecond, isChild⟩ :=
      linked.exists_parent_of_mem_subtree secondInside member same
    have sameParent : some number = some parent :=
      (linked.listed isFirst).2.2.symm.trans (linked.listed isChild).2.2
    cases sameParent
    have bounds := linked.bounds_of_mem_subtree secondInside inSecond
    omega

/-- No element is below two children of one element. -/
theorem eq_of_mem_subtrees (linked : tree.Linked) {number first second : Nat}
    (isFirst : first ∈ (tree.element number).children)
    (isSecond : second ∈ (tree.element number).children) {other : Nat}
    (inFirst : other ∈ tree.subtree first) (inSecond : other ∈ tree.subtree second) :
    first = second := by
  have firstInside := (linked.listed isFirst).2.1
  have secondInside := (linked.listed isSecond).2.1
  -- The way up from the common element stays below both, until it comes to one of them.
  induction other using Nat.strongRecOn with
  | ind other inductionHypothesis =>
      by_cases isTop : other = first
      · exact linked.eq_of_mem_subtree isFirst isSecond (isTop ▸ inSecond)
      by_cases isOtherTop : other = second
      · exact (linked.eq_of_mem_subtree isSecond isFirst (isOtherTop ▸ inFirst)).symm
      obtain ⟨parent, above, isChild⟩ :=
        linked.exists_parent_of_mem_subtree firstInside inFirst isTop
      obtain ⟨otherParent, otherAbove, isOtherChild⟩ :=
        linked.exists_parent_of_mem_subtree secondInside inSecond isOtherTop
      have sameParent : some parent = some otherParent :=
        (linked.listed isChild).2.2.symm.trans (linked.listed isOtherChild).2.2
      cases sameParent
      exact inductionHypothesis parent (linked.listed isChild).1 above otherAbove

theorem nodup_children (linked : tree.Linked) (number : Nat) :
    (tree.element number).children.Nodup := by
  apply List.nodup_iff_count_le_one.mpr
  intro child
  by_cases member : child ∈ (tree.element number).children
  · obtain ⟨later, inside, isParent⟩ := linked.listed member
    obtain ⟨parent, otherParent, once⟩ := linked.placed (Nat.zero_lt_of_lt later) inside
    rw [isParent] at otherParent
    cases otherParent
    exact Nat.le_of_eq once
  · rw [List.count_eq_zero_of_not_mem member]
    exact Nat.zero_le _

theorem nodup_subtree (linked : tree.Linked) {top : Nat} (inside : top < tree.size) :
    (tree.subtree top).Nodup := by
  induction top, inside using linked.induct with
  | each top inside inductionHypothesis =>
      rw [linked.subtree_eq top, List.nodup_cons]
      constructor
      · intro member
        obtain ⟨child, isChild, inChild⟩ := List.mem_flatMap.mp member
        obtain ⟨later, childInside, -⟩ := linked.listed isChild
        have bounds := linked.bounds_of_mem_subtree childInside inChild
        omega
      · refine List.nodup_flatMap.mpr ⟨inductionHypothesis, ?_⟩
        have distinct := linked.nodup_children top
        refine List.Pairwise.imp_of_mem ?_ distinct
        intro first second isFirst isSecond different other inFirst inSecond
        exact different (linked.eq_of_mem_subtrees isFirst isSecond inFirst inSecond)

/-- All elements are below the root. -/
theorem mem_subtree_root_iff (linked : tree.Linked) {number : Nat} :
    number ∈ tree.subtree root ↔ number < tree.size := by
  constructor
  · exact fun member => (linked.bounds_of_mem_subtree linked.nonempty member).2
  · intro inside
    induction number using Nat.strongRecOn with
    | ind number inductionHypothesis =>
        by_cases isRoot : number = root
        · rw [isRoot]
          exact linked.mem_subtree_self root
        · obtain ⟨parent, -, once⟩ := linked.placed (Nat.pos_of_ne_zero isRoot) inside
          have member : number ∈ (tree.element parent).children := List.count_pos_iff.mp (by omega)
          have earlier := (linked.listed member).1
          exact linked.mem_subtree_of_mem_children linked.nonempty
            (inductionHypothesis parent earlier (lt_size_of_mem_children member)) member

theorem length_subtree_le (linked : tree.Linked) {top : Nat} (inside : top < tree.size) :
    (tree.subtree top).length ≤ tree.size := by
  have within : tree.subtree top ⊆ List.range tree.size := fun number member =>
    List.mem_range.mpr (linked.bounds_of_mem_subtree inside member).2
  have fewer := ((linked.nodup_subtree inside).subperm within).length_le
  rwa [List.length_range] at fewer

/-! ## Document order -/

/-- The stack is emptied, and what it held is taken with all below it. -/
theorem unstacks (linked : tree.Linked) {stack : List Nat}
    (inside : ∀ number ∈ stack, number < tree.size) :
    tree.Unstacks stack (stack.flatMap tree.subtree) := by
  -- Each step takes one of the elements that are listed below those of the stack.
  obtain ⟨count, isCount⟩ : ∃ count, (stack.flatMap tree.subtree).length = count := ⟨_, rfl⟩
  induction count generalizing stack with
  | zero =>
      cases stack with
      | nil => exact .done
      | cons number rest =>
          rw [List.flatMap_cons, linked.subtree_eq number] at isCount
          cases isCount
  | succ count inductionHypothesis =>
      cases stack with
      | nil => cases isCount
      | cons number rest =>
          rw [List.flatMap_cons, linked.subtree_eq number] at isCount ⊢
          rw [List.cons_append, ← List.flatMap_append] at isCount ⊢
          refine .take (inductionHypothesis ?_ (Nat.succ.inj isCount))
          intro other member
          rcases List.mem_append.mp member with isChild | inRest
          · exact (linked.listed isChild).2.1
          · exact inside other (List.mem_cons_of_mem _ inRest)

/-- Document order takes an element and all below it, each in front of what is below it. -/
theorem descendants_eq (linked : tree.Linked) {number : Nat} (inside : number < tree.size) :
    tree.descendants number = tree.subtree number := by
  have single : [number].flatMap tree.subtree = tree.subtree number := List.flatMap_singleton _ _
  have starts : ∀ other ∈ [number], other < tree.size := by simpa using inside
  have run := linked.unstacks starts
  rw [single] at run
  exact run.unstack_eq (linked.length_subtree_le inside)

theorem descendants_root (linked : tree.Linked) : tree.descendants root = tree.subtree root :=
  linked.descendants_eq linked.nonempty

end Linked

end LivePage.PageTree
