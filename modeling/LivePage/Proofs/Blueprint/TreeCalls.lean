import LivePage.Proofs.Blueprint.Links

/-!
Contract: page trees after any calls of their operations.

Owns:
- the calls that may be made on a page tree, and sequences of them;
- accounted trees, in which links, counts and definitions agree and every count keeps to
  its range;
- a tree is accounted for after any calls, and which children an element then refuses.

Does not own: document order, and which calls the reading of a page makes.
-/

namespace LivePage

/-- A call of an operation of page trees. -/
inductive TreeCall where
  | addChild (parent : Nat) (child : Definition)
  | setAttribute (number : Nat) (name value : String)
  | appendAttribute (number : Nat) (name value : String)
  | pushArgument (number : Nat) (argument : Json)
  | addTagLibrary (number : Nat) (library : TagLibrary)

/-- The element that a call is about. -/
def TreeCall.number : TreeCall → Nat
  | .addChild parent _ => parent
  | .setAttribute number _ _ => number
  | .appendAttribute number _ _ => number
  | .pushArgument number _ => number
  | .addTagLibrary number _ => number

namespace PageTree

/-- The tree after a call, and how the call went. -/
def perform (tree : PageTree) : TreeCall → PageTree × Except ChildError Unit
  | .addChild parent child =>
      match tree.addChild parent child with
      | .ok next => (next, .ok ())
      | .error error => (tree, .error error)
  | .setAttribute number name value => (tree.setAttribute number name value, .ok ())
  | .appendAttribute number name value => (tree.appendAttribute number name value, .ok ())
  | .pushArgument number argument => (tree.pushArgument number argument, .ok ())
  | .addTagLibrary number library => (tree.addTagLibrary number library, .ok ())

def performAll (tree : PageTree) (calls : List TreeCall) : PageTree :=
  calls.foldl (fun tree call => (tree.perform call).1) tree

/-- Every call is about an element that is there when the call is made. -/
def HasElementsFor (tree : PageTree) : List TreeCall → Prop
  | [] => True
  | call :: rest => call.number < tree.size ∧ (tree.perform call).1.HasElementsFor rest

/-- How many children of an element have a definition with the tag. -/
def countChildren (tree : PageTree) (number : Nat) (tag : String) : Nat :=
  (tree.element number).children.countP (fun child =>
    (tree.element child).definition.map Definition.tag = some tag)

/-- A tree whose links, counts and definitions agree. -/
structure Accounted (tree : PageTree) : Prop where
  root : root < tree.size ∧ (tree.element root).definition = none ∧
    (tree.element root).parent = none
  /-- Every other element has a definition that its parent admits. Its parent comes
  earlier and lists it once, and nobody else lists it. -/
  hangs : ∀ number, PageTree.root < number → number < tree.size → ∃ parent definition,
    parent < number ∧ (tree.element number).parent = some parent ∧
      (tree.element number).definition = some definition ∧
      Definition.Admits (tree.element parent).definition definition ∧
      ∀ other, (tree.element other).children.count number = if other = parent then 1 else 0
  listed : ∀ number, ∀ child ∈ (tree.element number).children,
    child < tree.size ∧ (tree.element child).parent = some number
  ascending : ∀ number, (tree.element number).children.Pairwise (· < ·)
  counted : ∀ number tag, (tree.element number).childCount tag = tree.countChildren number tag
  inRange : ∀ number definition, (tree.element number).definition = some definition →
    ∀ tag cardinality max, definition.cardinalityFor tag = some cardinality →
      cardinality.max = some max → tree.countChildren number tag ≤ max

/-- Whether an element has no place for one more child: the child restricts its parents
to others, or the element's definition has no range for the child's tag or one that is
used up. -/
def Refuses (tree : PageTree) (parent : Nat) (child : Definition) : Prop :=
  (∃ parents, child.parents = some parents ∧ (tree.element parent).tag ∉ parents) ∨
    ∃ definition, (tree.element parent).definition = some definition ∧
      (definition.cardinalityFor child.tag = none ∨
        ∃ cardinality max, definition.cardinalityFor child.tag = some cardinality ∧
          cardinality.max = some max ∧ max < tree.countChildren parent child.tag + 1)

/-! ## What the operations keep -/

/-- The definition of an element, its children and the counts of these. -/
private def bookkeeping (element : Element) : Option Definition × List Nat × Dict Nat :=
  (element.definition, element.children, element.childCounts)

/-- The part of the accounts that one call after another keeps: counts agree with the
children, which are admitted, ascend and keep to their ranges. -/
structure Tallied (tree : PageTree) : Prop where
  rootBare : (tree.element root).definition = none ∧ (tree.element root).parent = none
  admitted : ∀ {number child}, child ∈ (tree.element number).children →
    ∃ definition, (tree.element child).definition = some definition ∧
      Definition.Admits (tree.element number).definition definition
  ascending : ∀ number, (tree.element number).children.Pairwise (· < ·)
  counted : ∀ number tag, (tree.element number).childCount tag = tree.countChildren number tag
  inRange : ∀ {number definition}, (tree.element number).definition = some definition →
    ∀ {tag cardinality}, definition.cardinalityFor tag = some cardinality →
      cardinality.allowsUpTo ((tree.element number).childCount tag) = true

namespace Tallied

variable {tree : PageTree}

theorem empty : PageTree.empty.Tallied := by
  have bare : ∀ number, PageTree.empty.element number = Element.bare none none := by
    intro number
    by_cases inside : number < PageTree.empty.size
    · rw [Nat.lt_one_iff.mp inside]
      rfl
    · exact element_of_outside (Nat.le_of_not_lt inside)
  refine ⟨⟨rfl, rfl⟩, ?_, ?_, ?_, ?_⟩
  · intro number child member
    rw [bare] at member
    cases member
  · intro number
    rw [bare]
    exact List.Pairwise.nil
  · intro number tag
    rw [countChildren, bare]
    rfl
  · intro number definition known
    rw [bare] at known
    cases known

/-- What is written into an element besides its children and its definition does not matter. -/
theorem modify (tallied : tree.Tallied) (changed : Nat) {change : Element → Element}
    (sameParent : ∀ element, (change element).parent = element.parent)
    (sameBooks : ∀ element, bookkeeping (change element) = bookkeeping element) :
    (tree.modify changed change).Tallied := by
  have books := view_modify tree changed bookkeeping sameBooks
  have definition_eq := fun number => congrArg Prod.fst (books number)
  have children_eq := fun number => congrArg (fun entry => entry.2.1) (books number)
  have counts_eq := fun number => congrArg (fun entry => entry.2.2) (books number)
  simp only [bookkeeping] at definition_eq children_eq counts_eq
  have childCount_eq : ∀ number tag, ((tree.modify changed change).element number).childCount tag =
      (tree.element number).childCount tag := by
    intro number tag
    rw [Element.childCount, counts_eq]
    rfl
  refine ⟨⟨?_, ?_⟩, ?_, ?_, ?_, ?_⟩
  · rw [definition_eq]
    exact tallied.rootBare.1
  · rw [view_modify tree changed Element.parent sameParent]
    exact tallied.rootBare.2
  · intro number child member
    rw [children_eq] at member
    rw [definition_eq, definition_eq]
    exact tallied.admitted member
  · intro number
    rw [children_eq]
    exact tallied.ascending number
  · intro number tag
    rw [childCount_eq, tallied.counted, countChildren, countChildren, children_eq]
    simp only [definition_eq]
  · intro number definition known tag cardinality range
    rw [definition_eq] at known
    rw [childCount_eq]
    exact tallied.inRange known range

end Tallied

/-! ## One more child -/

section OneMoreChild

variable {tree next : PageTree} {parent : Nat} {child : Definition}

theorem Gains.admitted (gains : tree.Gains parent child next) (tallied : tree.Tallied)
    (linked : tree.Linked) (admitted : Definition.Admits (tree.element parent).definition child)
    {number other : Nat} (member : other ∈ (next.element number).children) :
    ∃ definition, (next.element other).definition = some definition ∧
      Definition.Admits (next.element number).definition definition := by
  by_cases inside : number < tree.size
  · rw [gains.children_eq inside] at member
    rw [gains.definition_eq inside]
    rcases List.mem_append.mp member with isOld | isAdded
    · rw [gains.definition_eq (linked.listed isOld).2.1]
      exact tallied.admitted isOld
    · split at isAdded
      · next isParent =>
          rw [List.mem_singleton.mp isAdded, ← isParent]
          exact ⟨child, gains.newDefinition, admitted⟩
      · cases isAdded
  · rw [(gains.childless (Nat.le_of_not_lt inside)).1] at member
    cases member

theorem Gains.ascending (gains : tree.Gains parent child next) (tallied : tree.Tallied)
    (linked : tree.Linked) (number : Nat) :
    (next.element number).children.Pairwise (· < ·) := by
  by_cases inside : number < tree.size
  · rw [gains.children_eq inside]
    refine List.pairwise_append.mpr ⟨tallied.ascending number, ?_, ?_⟩
    · split
      · exact List.pairwise_singleton _ _
      · exact List.Pairwise.nil
    · intro other isOld last isAdded
      have otherInside := (linked.listed isOld).2.1
      split at isAdded
      · rw [List.mem_singleton.mp isAdded]
        exact otherInside
      · cases isAdded
  · rw [(gains.childless (Nat.le_of_not_lt inside)).1]
    exact List.Pairwise.nil

theorem Gains.counted (gains : tree.Gains parent child next) (tallied : tree.Tallied)
    (linked : tree.Linked) (number : Nat) (tag : String) :
    (next.element number).childCount tag = next.countChildren number tag := by
  by_cases inside : number < tree.size
  · have sameOld : (tree.element number).children.countP (fun other =>
          (next.element other).definition.map Definition.tag = some tag) =
        tree.countChildren number tag := by
      refine List.countP_congr ?_
      intro other isOld
      rw [gains.definition_eq (linked.listed isOld).2.1]
    rw [gains.childCount_eq inside, countChildren, gains.children_eq inside, List.countP_append,
      sameOld, tallied.counted]
    split
    · simp [gains.newDefinition, List.count_singleton]
    · rfl
  · obtain ⟨noChild, noCount⟩ := gains.childless (Nat.le_of_not_lt inside)
    rw [noCount, countChildren, noChild]
    rfl

theorem Gains.inRange (gains : tree.Gains parent child next) (tallied : tree.Tallied)
    (room : (tree.element parent).HasRoom [child.tag]) {number : Nat} {definition : Definition}
    (known : (next.element number).definition = some definition) {tag : String}
    {cardinality : Cardinality} (range : definition.cardinalityFor tag = some cardinality) :
    cardinality.allowsUpTo ((next.element number).childCount tag) = true := by
  by_cases inside : number < tree.size
  · rw [gains.definition_eq inside] at known
    rw [gains.childCount_eq inside]
    split
    · next isParent =>
        subst isParent
        by_cases isTag : tag = child.tag
        · rw [isTag] at range ⊢
          exact room definition known _ (List.mem_singleton_self _) cardinality range
        · rw [List.count_eq_zero_of_not_mem (by simpa using isTag)]
          exact tallied.inRange known range
    · exact tallied.inRange known range
  · rw [(gains.childless (Nat.le_of_not_lt inside)).2]
    exact cardinality.allowsUpTo_zero

theorem Tallied.addChild (tallied : tree.Tallied) (linked : tree.Linked) (inside : parent < tree.size)
    (added : tree.addChild parent child = .ok next) : next.Tallied := by
  obtain ⟨accepted, rfl⟩ := (addChild_eq_ok_iff tree next parent child).mp added
  obtain ⟨admitted, room⟩ := (Element.accept_eq_ok_iff _ _).mp accepted
  have gains := gains_addBranch inside child
  refine ⟨⟨?_, ?_⟩, ?_, gains.ascending tallied linked, gains.counted tallied linked, ?_⟩
  · rw [gains.definition_eq linked.nonempty]
    exact tallied.rootBare.1
  · rw [gains.parent_eq linked.nonempty]
    exact tallied.rootBare.2
  · exact gains.admitted tallied linked admitted
  · exact gains.inRange tallied room

end OneMoreChild

theorem Made.tallied {tree : PageTree} (made : tree.Made) : tree.Tallied := by
  induction made with
  | empty => exact .empty
  | addChild made inside added tallied => exact tallied.addChild made.linked inside added
  | setAttribute _ number name value tallied =>
      exact tallied.modify number (fun _ => rfl) (fun _ => rfl)
  | appendAttribute _ number name value tallied =>
      exact tallied.modify number (fun _ => rfl) (fun _ => rfl)
  | pushArgument _ number argument tallied =>
      exact tallied.modify number (fun _ => rfl) (fun _ => rfl)
  | addTagLibrary _ number library tallied =>
      exact tallied.modify number (fun _ => rfl) (fun _ => rfl)

/-- What the operations lead to is accounted for. -/
theorem Made.accounted {tree : PageTree} (made : tree.Made) : tree.Accounted := by
  have linked := made.linked
  have tallied := made.tallied
  refine ⟨⟨linked.nonempty, tallied.rootBare⟩, ?_, ?_, tallied.ascending, tallied.counted, ?_⟩
  · intro number notRoot inside
    obtain ⟨parent, isParent, once⟩ := linked.placed notRoot inside
    have member : number ∈ (tree.element parent).children := List.count_pos_iff.mp (by omega)
    obtain ⟨definition, known, admitted⟩ := tallied.admitted member
    refine ⟨parent, definition, (linked.listed member).1, isParent, known, admitted, ?_⟩
    intro other
    split
    · next same => rw [same, once]
    · next different =>
        apply List.count_eq_zero_of_not_mem
        intro isListed
        have pointsBack := (linked.listed isListed).2.2
        rw [isParent] at pointsBack
        exact different (Option.some.inj pointsBack).symm
  · intro number child member
    exact (linked.listed member).2
  · intro number definition known tag cardinality max range isMax
    have allows := tallied.inRange known range
    rw [tallied.counted, Cardinality.allowsUpTo, isMax] at allows
    exact of_decide_eq_true allows

/-! ## Calls -/

theorem Made.perform {tree : PageTree} (made : tree.Made) {call : TreeCall}
    (inside : call.number < tree.size) : (tree.perform call).1.Made := by
  cases call with
  | addChild parent child =>
      rw [PageTree.perform]
      split
      · next next added => exact .addChild made inside added
      · exact made
  | setAttribute number name value => exact made.setAttribute number name value
  | appendAttribute number name value => exact made.appendAttribute number name value
  | pushArgument number argument => exact made.pushArgument number argument
  | addTagLibrary number library => exact made.addTagLibrary number library

theorem Made.performAll {tree : PageTree} (made : tree.Made) {calls : List TreeCall}
    (existing : tree.HasElementsFor calls) : (tree.performAll calls).Made := by
  induction calls generalizing tree with
  | nil => exact made
  | cons call rest inductionHypothesis =>
      exact inductionHypothesis (made.perform existing.1) existing.2

/-- A child is not accepted exactly when it is refused. -/
theorem Tallied.accept_eq_ok_iff {tree : PageTree} (tallied : tree.Tallied) (parent : Nat)
    (child : Definition) :
    (tree.element parent).accept child = .ok () ↔ ¬tree.Refuses parent child := by
  rw [Element.accept_eq_ok_iff, Refuses]
  have tag_eq : (tree.element parent).tag =
      Definition.parentTag (tree.element parent).definition := by
    unfold Element.tag Definition.parentTag
    rfl
  have counted := tallied.counted parent child.tag
  rw [tag_eq, ← counted]
  constructor
  · rintro ⟨admitted, room⟩ (⟨parents, restricted, notAmong⟩ | ⟨definition, known, noRange |
      ⟨cardinality, max, range, isMax, above⟩⟩)
    · exact notAmong (admitted.parentAllowed parents restricted)
    · have hasRange := admitted.hasRange definition known
      rw [noRange] at hasRange
      cases hasRange
    · have allows := room definition known _ (List.mem_singleton_self _) cardinality range
      rw [List.count_singleton_self, Cardinality.allowsUpTo, isMax] at allows
      have below := of_decide_eq_true allows
      omega
  · intro notRefused
    rw [not_or, not_exists, not_exists] at notRefused
    obtain ⟨allowed, fits⟩ := notRefused
    refine ⟨⟨fun parents restricted => ?_, ?_⟩, ?_⟩
    · exact Classical.not_not.mp fun notAmong => allowed parents ⟨restricted, notAmong⟩
    · intro definition known
      rw [Option.isSome_iff_ne_none]
      exact fun noRange => fits definition ⟨known, Or.inl noRange⟩
    · intro definition known tag member cardinality range
      rw [List.mem_singleton.mp member] at range ⊢
      rw [List.count_singleton_self, Cardinality.allowsUpTo]
      split
      · next max isMax =>
          apply decide_eq_true
          apply Nat.le_of_not_lt
          exact fun above => fits definition ⟨known, Or.inr ⟨cardinality, max, range, isMax, above⟩⟩
      · rfl

/-- After any calls on elements that are there, a page tree is accounted for. One more child
is then refused, with the tree left as it is, exactly when it does not allow its parent's tag
or, below the root, its parent has no range for it or one that is used up; else it is added. -/
theorem calls_leave_tree_accounted {calls : List TreeCall}
    (existing : PageTree.empty.HasElementsFor calls) :
    let tree := PageTree.empty.performAll calls
    tree.Accounted ∧ ∀ parent child, parent < tree.size →
      ((∃ error, tree.perform (.addChild parent child) = (tree, .error error)) ↔
        tree.Refuses parent child) ∧
      (¬tree.Refuses parent child → ∃ next,
        tree.perform (.addChild parent child) = (next, .ok ()) ∧ next.size = tree.size + 1) := by
  intro tree
  have made : tree.Made := Made.performAll .empty existing
  refine ⟨made.accounted, ?_⟩
  intro parent child inside
  rw [PageTree.perform]
  have accept_iff := made.tallied.accept_eq_ok_iff parent child
  cases added : tree.addChild parent child with
  | ok next =>
      obtain ⟨accepted, next_eq⟩ := (addChild_eq_ok_iff _ _ _ _).mp added
      have notRefused := accept_iff.mp accepted
      refine ⟨iff_of_false (by simp) notRefused, fun _ => ⟨next, rfl, ?_⟩⟩
      rw [next_eq, size_addBranch inside]
      rfl
  | error error =>
      have refused : tree.Refuses parent child := by
        by_contra notRefused
        have accepted := accept_iff.mpr notRefused
        rw [(addChild_eq_ok_iff _ _ _ _).mpr ⟨accepted, rfl⟩] at added
        cases added
      exact ⟨iff_of_true ⟨error, rfl⟩ refused, fun notRefused => absurd refused notRefused⟩

/-- A bar that takes two buttons refuses the third one. -/
theorem third_button_is_refused :
    let bar := (Definition.basic "bar" "Bar").withChild "button" ⟨1, some 2⟩
    let button := Definition.basic "button" "Button"
    let calls : List TreeCall := [.addChild 0 bar, .addChild 1 button, .setAttribute 1 "name" "b",
      .addChild 1 button, .addChild 1 button]
    let tree := PageTree.empty.performAll calls
    PageTree.empty.HasElementsFor calls ∧ tree.Accounted ∧
      ∃ error, tree.perform (.addChild 1 button) = (tree, .error error) := by
  intro bar button calls tree
  have existing : PageTree.empty.HasElementsFor calls := by
    refine ⟨?_, ?_, ?_, ?_, ?_, trivial⟩ <;> decide +kernel
  obtain ⟨accounted, each⟩ := calls_leave_tree_accounted existing
  have known : (tree.element 1).definition = some bar := by decide +kernel
  have range : bar.cardinalityFor button.tag = some ⟨1, some 2⟩ := by decide +kernel
  have usedUp : 2 < tree.countChildren 1 button.tag + 1 := by decide +kernel
  have refused : tree.Refuses 1 button := Or.inr ⟨bar, known, Or.inr ⟨_, 2, range, rfl, usedUp⟩⟩
  exact ⟨existing, accounted, (each 1 button (by decide +kernel)).1.mpr refused⟩

end PageTree

end LivePage
