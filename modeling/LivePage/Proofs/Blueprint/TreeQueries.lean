import LivePage.Proofs.Blueprint.TreeCalls
import Mathlib.Data.List.Flatten
import Mathlib.Logic.Relation

/-!
Contract: what is asked of a page tree after any calls.

Owns:
- the run of the search upwards, along parents, to its end;
- document order, in terms of children alone;
- the libraries that calls register, and the way from an element up to the root;
- the answers to both questions, whatever the order in which elements were added.

Does not own: which elements and libraries the reading of a page adds.
-/

namespace LivePage

/-- The library that a call registers for a prefix on an element. -/
def TreeCall.registered? (number : Nat) (libraryPrefix : String) : TreeCall → Option TagLibrary
  | .addTagLibrary other library =>
      if other = number ∧ library.libraryPrefix = libraryPrefix then some library else none
  | _ => none

namespace PageTree

/-- A run from an element up to the first one that has a library of the prefix, or to the root. -/
inductive Climbs (tree : PageTree) (libraryPrefix : String) : Nat → Option TagLibrary → Prop
  | found {number : Nat} {library : TagLibrary}
      (isHere : (tree.element number).tagLibraries.get? libraryPrefix = some library) :
      Climbs tree libraryPrefix number (some library)
  | up {number parent : Nat} {outcome : Option TagLibrary}
      (absent : (tree.element number).tagLibraries.get? libraryPrefix = none)
      (isParent : (tree.element number).parent = some parent)
      (above : Climbs tree libraryPrefix parent outcome) :
      Climbs tree libraryPrefix number outcome
  | top {number : Nat} (absent : (tree.element number).tagLibraries.get? libraryPrefix = none)
      (noParent : (tree.element number).parent = none) : Climbs tree libraryPrefix number none

/-! ## Order and libraries -/

def HasChild (tree : PageTree) (number child : Nat) : Prop :=
  child ∈ (tree.element number).children

/-- Whether an element is another one or lies below it. -/
def Reaches (tree : PageTree) : Nat → Nat → Prop :=
  Relation.ReflTransGen tree.HasChild

/-- An element stands in front of what is below it, and what is below an earlier child of an
element in front of what is below a later one. -/
inductive InFrontOf (tree : PageTree) : Nat → Nat → Prop
  | below {number child other : Nat} (isChild : tree.HasChild number child)
      (reaches : tree.Reaches child other) : InFrontOf tree number other
  | beside {number earlier later first second : Nat}
      (siblings : [earlier, later].Sublist (tree.element number).children)
      (inEarlier : tree.Reaches earlier first) (inLater : tree.Reaches later second) :
      InFrontOf tree first second

/-- Whether a list has an element and all below it, each once and in the order of the document. -/
structure ListsInOrder (tree : PageTree) (top : Nat) (numbers : List Nat) : Prop where
  complete : ∀ number, number ∈ numbers ↔ tree.Reaches top number
  once : numbers.Nodup
  ordered : numbers.Pairwise
    (fun first second => tree.InFrontOf first second ∧ ¬tree.InFrontOf second first)

/-- The way from an element to the root, from each element to the one that lists it. -/
inductive WayUp (tree : PageTree) : Nat → List Nat → Prop
  | atRoot : WayUp tree root [root]
  | child {number parent : Nat} {above : List Nat} (isChild : tree.HasChild parent number)
      (way : WayUp tree parent above) : WayUp tree number (number :: above)

/-- The library that was registered last for a prefix on an element. -/
def registered? (calls : List TreeCall) (number : Nat) (libraryPrefix : String) :
    Option TagLibrary :=
  calls.reverse.findSome? (TreeCall.registered? number libraryPrefix)

/-! ## The search downwards -/

theorem HasChild.subtree_sublist {tree : PageTree} {number child : Nat}
    (isChild : tree.HasChild number child) :
    (tree.subtree child).Sublist ((tree.element number).children.flatMap tree.subtree) :=
  List.sublist_flatten_of_mem (List.mem_map_of_mem isChild)

namespace Linked

variable {tree : PageTree}

theorem mem_subtree_iff (linked : tree.Linked) {top : Nat} (inside : top < tree.size)
    {number : Nat} : number ∈ tree.subtree top ↔ tree.Reaches top number := by
  constructor
  · induction top, inside using linked.induct with
    | each top inside inductionHypothesis =>
        intro member
        rw [linked.subtree_eq top] at member
        rcases List.mem_cons.mp member with isTop | isBelow
        · rw [isTop]
          exact .refl
        · obtain ⟨child, isChild, inChild⟩ := List.mem_flatMap.mp isBelow
          exact .head isChild (inductionHypothesis child isChild inChild)
  · intro reaches
    induction reaches with
    | refl => exact linked.mem_subtree_self top
    | tail _ isChild member => exact linked.mem_subtree_of_mem_children inside member isChild

theorem subtree_sublist (linked : tree.Linked) {top number : Nat}
    (reaches : tree.Reaches top number) : (tree.subtree number).Sublist (tree.subtree top) := by
  induction reaches using Relation.ReflTransGen.head_induction_on with
  | refl => exact .refl _
  | @head top child isChild _ inChild =>
      rw [linked.subtree_eq top]
      exact (inChild.trans isChild.subtree_sublist).cons top

/-- What stands in front of another element is listed in front of it. -/
theorem sublist_of_inFrontOf (linked : tree.Linked) {first second : Nat}
    (inFront : tree.InFrontOf first second) : [first, second].Sublist (tree.subtree root) := by
  have fromRoot : ∀ {number}, number < tree.size →
      (tree.subtree number).Sublist (tree.subtree root) := fun inside =>
    linked.subtree_sublist
      ((linked.mem_subtree_iff linked.nonempty).mp (linked.mem_subtree_root_iff.mpr inside))
  have single : ∀ {top number}, top < tree.size → tree.Reaches top number →
      [number].Sublist (tree.subtree top) := fun inside reaches =>
    List.singleton_sublist.mpr ((linked.mem_subtree_iff inside).mpr reaches)
  cases inFront with
  | @below _ child _ isChild reaches =>
      refine List.Sublist.trans ?_ (fromRoot (lt_size_of_mem_children isChild))
      rw [linked.subtree_eq first]
      exact ((single (linked.listed isChild).2.1 reaches).trans
        isChild.subtree_sublist).cons_cons first
  | @beside number earlier later _ _ siblings inEarlier inLater =>
      have areChildren := siblings.subset
      have isEarlier := areChildren List.mem_cons_self
      have isLater := areChildren (List.mem_cons_of_mem _ List.mem_cons_self)
      refine List.Sublist.trans ?_ (fromRoot (lt_size_of_mem_children isEarlier))
      rw [linked.subtree_eq number]
      have both : [first, second].Sublist ([earlier, later].flatMap tree.subtree) := by
        rw [List.flatMap_cons, List.flatMap_singleton]
        exact (single (linked.listed isEarlier).2.1 inEarlier).append
          (single (linked.listed isLater).2.1 inLater)
      exact (both.trans (siblings.flatMap _)).cons number

theorem ordered_subtree (linked : tree.Linked) {top : Nat} (inside : top < tree.size) :
    (tree.subtree top).Pairwise tree.InFrontOf := by
  induction top, inside using linked.induct with
  | each top inside inductionHypothesis =>
      rw [linked.subtree_eq top, List.pairwise_cons, List.pairwise_flatMap]
      refine ⟨?_, inductionHypothesis, ?_⟩
      · intro other member
        obtain ⟨child, isChild, inChild⟩ := List.mem_flatMap.mp member
        exact .below isChild ((linked.mem_subtree_iff (linked.listed isChild).2.1).mp inChild)
      · rw [List.pairwise_iff_forall_sublist]
        intro earlier later siblings first inEarlier second inLater
        have areChildren := siblings.subset
        have isEarlier := areChildren List.mem_cons_self
        have isLater := areChildren (List.mem_cons_of_mem _ List.mem_cons_self)
        exact .beside siblings
          ((linked.mem_subtree_iff (linked.listed isEarlier).2.1).mp inEarlier)
          ((linked.mem_subtree_iff (linked.listed isLater).2.1).mp inLater)

end Linked

/-- Of two elements of a list without repetition, only one comes first. -/
private theorem not_sublist_swapped {numbers : List Nat} (once : numbers.Nodup) {first second : Nat}
    (forth : [first, second].Sublist numbers) : ¬[second, first].Sublist numbers := by
  intro back
  induction numbers with
  | nil => cases forth
  | cons head rest inductionHypothesis =>
      obtain ⟨notAgain, onceInRest⟩ := List.nodup_cons.mp once
      rcases List.sublist_cons_iff.mp forth with forthInRest | ⟨_, ⟨⟩, secondInRest⟩
      · rcases List.sublist_cons_iff.mp back with backInRest | ⟨_, ⟨⟩, firstInRest⟩
        · exact inductionHypothesis onceInRest forthInRest backInRest
        · exact notAgain (forthInRest.subset (List.mem_cons_of_mem _ List.mem_cons_self))
      · rcases List.sublist_cons_iff.mp back with backInRest | ⟨_, ⟨⟩, firstInRest⟩
        · exact notAgain (backInRest.subset (List.mem_cons_of_mem _ List.mem_cons_self))
        · exact notAgain (List.singleton_sublist.mp firstInRest)

namespace Linked

variable {tree : PageTree}

theorem listsInOrder_subtree (linked : tree.Linked) {top : Nat} (inside : top < tree.size) :
    tree.ListsInOrder top (tree.subtree top) where
  complete _ := linked.mem_subtree_iff inside
  once := linked.nodup_subtree inside
  ordered := by
    refine (linked.ordered_subtree inside).imp ?_
    intro first second inFront
    refine ⟨inFront, fun behind => ?_⟩
    exact not_sublist_swapped (linked.nodup_subtree linked.nonempty)
      (linked.sublist_of_inFrontOf inFront) (linked.sublist_of_inFrontOf behind)

end Linked

/-! ## The search upwards -/

section Upwards

variable {tree : PageTree} {libraryPrefix : String}

theorem Linked.exists_wayUp (linked : tree.Linked) {number : Nat} (inside : number < tree.size) :
    ∃ way, tree.WayUp number way := by
  induction number using Nat.strongRecOn with
  | ind number inductionHypothesis =>
      by_cases isRoot : number = root
      · subst isRoot
        exact ⟨[root], .atRoot⟩
      · obtain ⟨parent, -, once⟩ := linked.placed (Nat.pos_of_ne_zero isRoot) inside
        have isChild : tree.HasChild parent number := List.count_pos_iff.mp (by omega)
        obtain ⟨above, way⟩ := inductionHypothesis parent (linked.listed isChild).1
          (lt_size_of_mem_children isChild)
        exact ⟨number :: above, .child isChild way⟩

/-- The search goes up the whole way, since each parent has a lower number. -/
theorem WayUp.climbs {number : Nat} {way : List Nat} (goes : tree.WayUp number way)
    (made : tree.Made) {fuel : Nat} (enough : number < fuel) :
    tree.Climbs libraryPrefix number (tree.climbForLibrary libraryPrefix fuel number) ∧
      tree.climbForLibrary libraryPrefix fuel number =
        way.findSome? (fun above => (tree.element above).tagLibraries.get? libraryPrefix) := by
  induction goes generalizing fuel with
  | atRoot =>
      obtain ⟨fuel, rfl⟩ : ∃ fewer, fuel = fewer + 1 := ⟨fuel - 1, by omega⟩
      have noParent := made.tallied.rootBare.2
      rw [climbForLibrary, List.findSome?_cons]
      cases isHere : (tree.element root).tagLibraries.get? libraryPrefix with
      | some library => exact ⟨.found isHere, rfl⟩
      | none =>
          simp only [noParent]
          exact ⟨.top isHere noParent, rfl⟩
  | @child number parent above isChild _ inductionHypothesis =>
      obtain ⟨fuel, rfl⟩ : ∃ fewer, fuel = fewer + 1 := ⟨fuel - 1, by omega⟩
      obtain ⟨earlier, -, isParent⟩ := made.linked.listed isChild
      rw [climbForLibrary, List.findSome?_cons]
      cases isHere : (tree.element number).tagLibraries.get? libraryPrefix with
      | some library => exact ⟨.found isHere, rfl⟩
      | none =>
          simp only [isParent]
          have shorter : parent < fuel := by omega
          obtain ⟨climbs, isFirst⟩ := inductionHypothesis shorter
          exact ⟨.up isHere isParent climbs, isFirst⟩

end Upwards

/-! ## What calls register -/

/-- A new element has no library, and the others keep theirs. -/
theorem tagLibraries_addBranch {tree : PageTree} {parent : Nat} (inside : parent < tree.size)
    (child : Definition) (number : Nat) :
    ((tree.addBranch parent (.bare (some child))).element number).tagLibraries =
      (tree.element number).tagLibraries := by
  by_cases before : number < tree.size
  · rw [element_addBranch inside before]
    split <;> rfl
  · rw [element_of_outside (Nat.le_of_not_lt before)]
    by_cases isLast : number = tree.size
    · rw [isLast, element_addBranch_size inside]
      rfl
    · rw [element_addBare_of_lt inside child (by omega)]

/-- The libraries of an element after a call are those before it, and the one that the call
registers. -/
theorem get?_tagLibraries_perform {tree : PageTree} {call : TreeCall}
    (inside : call.number < tree.size) (number : Nat) (libraryPrefix : String) :
    ((tree.perform call).1.element number).tagLibraries.get? libraryPrefix =
      (call.registered? number libraryPrefix).or
        ((tree.element number).tagLibraries.get? libraryPrefix) := by
  have unseen : ∀ (changed : Nat) (change : Element → Element),
      (∀ element, (change element).tagLibraries = element.tagLibraries) →
      ((tree.modify changed change).element number).tagLibraries.get? libraryPrefix =
        (tree.element number).tagLibraries.get? libraryPrefix := by
    intro changed change same
    rw [view_modify tree changed Element.tagLibraries same]
  cases call with
  | addChild parent child =>
      simp only [perform, TreeCall.registered?, Option.none_or]
      split
      · next next added =>
          obtain ⟨-, rfl⟩ := (addChild_eq_ok_iff tree next parent child).mp added
          exact congrArg (Dict.get? · libraryPrefix) (tagLibraries_addBranch inside child number)
      · rfl
  | setAttribute changed name value => exact unseen changed _ (fun _ => rfl)
  | appendAttribute changed name value => exact unseen changed _ (fun _ => rfl)
  | pushArgument changed argument => exact unseen changed _ (fun _ => rfl)
  | addTagLibrary changed library =>
      simp only [perform, TreeCall.registered?, addTagLibrary]
      by_cases before : number < tree.size
      · rw [element_modify before]
        by_cases same : changed = number
        · rw [if_pos same, Dict.get?_insert]
          by_cases isPrefix : library.libraryPrefix = libraryPrefix
          · rw [if_pos isPrefix.symm, if_pos ⟨same, isPrefix⟩, Option.some_or]
          · rw [if_neg (Ne.symm isPrefix), if_neg (fun both => isPrefix both.2), Option.none_or]
        · rw [if_neg same, if_neg (fun both => same both.1), Option.none_or]
      · have different : changed ≠ number := fun same => before (same ▸ inside)
        rw [if_neg (fun both => different both.1), Option.none_or]
        have size_eq := size_modify tree changed (fun element =>
          { element with tagLibraries := element.tagLibraries.insert library.libraryPrefix library })
        rw [element_of_outside (Nat.le_of_not_lt before), element_of_outside (by omega)]

theorem tagLibraries_empty (number : Nat) :
    (PageTree.empty.element number).tagLibraries = .empty := by
  by_cases inside : number < PageTree.empty.size
  · rw [Nat.lt_one_iff.mp inside]
    rfl
  · rw [element_of_outside (Nat.le_of_not_lt inside)]
    rfl

/-- What an element has for a prefix after calls is what they registered last. -/
theorem get?_tagLibraries_performAll {tree : PageTree} {calls : List TreeCall}
    (existing : tree.HasElementsFor calls) (number : Nat) (libraryPrefix : String) :
    ((tree.performAll calls).element number).tagLibraries.get? libraryPrefix =
      (registered? calls number libraryPrefix).or
        ((tree.element number).tagLibraries.get? libraryPrefix) := by
  induction calls generalizing tree with
  | nil => rfl
  | cons call rest inductionHypothesis =>
      have latest : registered? (call :: rest) number libraryPrefix =
          (registered? rest number libraryPrefix).or (call.registered? number libraryPrefix) := by
        rw [registered?, registered?, List.reverse_cons, List.findSome?_append,
          List.findSome?_singleton]
      have later := inductionHypothesis existing.2
      rw [get?_tagLibraries_perform existing.1] at later
      rw [latest, Option.or_assoc]
      exact later

/-! ## Answers -/

/-- After any calls on elements that are there, in whatever order, both searches run to their
end. The search downwards takes an element and all below it, each once and in the order of the
document. The search upwards gives the library that was registered last for the prefix on the
nearest element on the way to the root that has one, and none exactly when none of them has. -/
theorem searches_follow_document {calls : List TreeCall}
    (existing : PageTree.empty.HasElementsFor calls) :
    let tree := PageTree.empty.performAll calls
    ∀ number, number < tree.size →
      tree.Unstacks [number] (tree.descendants number) ∧
      tree.ListsInOrder number (tree.descendants number) ∧
      ∀ libraryPrefix,
        tree.Climbs libraryPrefix number (tree.tagLibrary? number libraryPrefix) ∧
        ∃ way, tree.WayUp number way ∧
          (∀ library, tree.tagLibrary? number libraryPrefix = some library ↔
            ∃ nearer nearest farther, way = nearer ++ nearest :: farther ∧
              registered? calls nearest libraryPrefix = some library ∧
              ∀ other ∈ nearer, registered? calls other libraryPrefix = none) ∧
          (tree.tagLibrary? number libraryPrefix = none ↔
            ∀ other ∈ way, registered? calls other libraryPrefix = none) := by
  intro tree number inside
  have made : tree.Made := Made.performAll .empty existing
  have linked := made.linked
  have listed := linked.descendants_eq inside
  refine ⟨?_, ?_, fun libraryPrefix => ?_⟩
  · have starts : ∀ other ∈ [number], other < tree.size := by simpa using inside
    have run := linked.unstacks starts
    rwa [List.flatMap_singleton, ← listed] at run
  · rw [listed]
    exact linked.listsInOrder_subtree inside
  · obtain ⟨way, goes⟩ := linked.exists_wayUp inside
    obtain ⟨climbs, isFirst⟩ : tree.Climbs libraryPrefix number _ ∧ _ := goes.climbs made inside
    have registered : (fun above => (tree.element above).tagLibraries.get? libraryPrefix) =
        (fun above => registered? calls above libraryPrefix) := by
      funext above
      rw [get?_tagLibraries_performAll existing, tagLibraries_empty, Dict.get?_empty, Option.or_none]
    rw [registered] at isFirst
    refine ⟨climbs, way, goes, fun library => ?_, ?_⟩
    · rw [tagLibrary?, isFirst, List.findSome?_eq_some_iff]
    · rw [tagLibrary?, isFirst, List.findSome?_eq_none_iff]

/-- A bar whose button was added after a second bar: the order is that of the document, and the
button has the library that was registered last on its bar. -/
theorem late_button_is_found_in_place :
    let bar := (Definition.basic "bar" "Bar").withAnyChild .unbounded
    let calls : List TreeCall := [.addTagLibrary 0 ⟨"x", "urn:root"⟩, .addChild 0 bar,
      .addChild 0 bar, .addTagLibrary 1 ⟨"x", "urn:first"⟩, .addChild 1 bar,
      .addTagLibrary 1 ⟨"x", "urn:second"⟩]
    let tree := PageTree.empty.performAll calls
    PageTree.empty.HasElementsFor calls ∧ tree.ListsInOrder 0 [0, 1, 3, 2] ∧
      tree.Climbs "x" 3 (some ⟨"x", "urn:second"⟩) := by
  intro bar calls tree
  have existing : PageTree.empty.HasElementsFor calls := by
    refine ⟨?_, ?_, ?_, ?_, ?_, ?_, trivial⟩ <;> decide +kernel
  have answers := searches_follow_document existing
  have order : tree.descendants 0 = [0, 1, 3, 2] := by decide +kernel
  have library : tree.tagLibrary? 3 "x" = some ⟨"x", "urn:second"⟩ := by decide +kernel
  refine ⟨existing, ?_, ?_⟩
  · exact order ▸ (answers 0 (by decide +kernel)).2.1
  · exact library ▸ ((answers 3 (by decide +kernel)).2.2 "x").1

end PageTree

end LivePage
