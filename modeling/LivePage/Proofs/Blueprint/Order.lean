import LivePage.Proofs.Blueprint.Branch

/-!
Contract: page trees that keep to document order and to their definitions.

Owns:
- sound branches, in which every parent admits its children and every count fits;
- validated page trees, in terms of numbers alone;
- the tree of a sound branch is validated.

Does not own: how a page tree comes about.
-/

namespace LivePage

/-- A branch in which every element keeps to its definition. -/
inductive Branch.Sound : Branch → Prop where
  | node {label : Label} {children : List Branch}
      (admitted : ∀ child ∈ children, ∃ definition, child.label.definition = some definition ∧
        Definition.Admits label.definition definition)
      (fit : ∀ definition, label.definition = some definition →
        definition.CountsFit (children.map Branch.tag))
      (below : ∀ child ∈ children, child.Sound) :
      Sound (.node label children)

namespace PageTree

/-- Whether an element stands in an earlier one that admits it. -/
def Placed (tree : PageTree) (number : Nat) : Prop :=
  ∃ parent definition, parent < number ∧ (tree.element number).parent = some parent ∧
    (tree.element number).definition = some definition ∧
    Definition.Admits (tree.element parent).definition definition

/-- A complete page tree: the elements below the root are all elements in the
order of their numbers, every element passes its check, and every element but the
root stands in an earlier one that admits it. -/
structure Validated (tree : PageTree) : Prop where
  ordered : tree.descendants root = List.range tree.size
  complete : ∀ number, number < tree.size → tree.validate number = .ok ()
  placed : ∀ number, root < number → number < tree.size → tree.Placed number

/-! ## Where a tree holds a branch -/

/-- Whether the elements from a number on are those of a branch. -/
def Holds (tree : PageTree) (number : Nat) (parent : Option Nat) (branch : Branch) : Prop :=
  ∀ index element, (branch.layOut number parent)[index]? = some element →
    tree.element (number + index) = element

def HoldsAll (tree : PageTree) (number parent : Nat) (branches : List Branch) : Prop :=
  ∀ index element, (Branch.layOutAll number parent branches)[index]? = some element →
    tree.element (number + index) = element

section Holding

variable {tree : PageTree} {number : Nat}

theorem Holds.element_eq {parent : Option Nat} {branch : Branch}
    (holds : tree.Holds number parent branch) :
    tree.element number = branch.element number parent :=
  holds 0 _ (by rw [Branch.layOut_eq_cons]; rfl)

theorem Holds.children {parent : Option Nat} {branch : Branch}
    (holds : tree.Holds number parent branch) :
    tree.HoldsAll (number + 1) number branch.children := by
  intro index element found
  rw [Nat.add_assoc, Nat.add_comm 1]
  exact holds (index + 1) element (by rw [Branch.layOut_eq_cons]; exact found)

theorem HoldsAll.head {parent : Nat} {branch : Branch} {rest : List Branch}
    (holds : tree.HoldsAll number parent (branch :: rest)) :
    tree.Holds number (some parent) branch := by
  intro index element found
  obtain ⟨inside, -⟩ := List.getElem?_eq_some_iff.mp found
  exact holds index element (by rw [Branch.layOutAll, List.getElem?_append_left inside]; exact found)

theorem HoldsAll.tail {parent : Nat} {branch : Branch} {rest : List Branch}
    (holds : tree.HoldsAll number parent (branch :: rest)) :
    tree.HoldsAll (number + branch.size) parent rest := by
  intro index element found
  rw [Nat.add_assoc]
  apply holds
  rw [Branch.layOutAll, List.getElem?_append_right (by rw [Branch.length_layOut]; omega),
    Branch.length_layOut, Nat.add_sub_cancel_left]
  exact found

end Holding

theorem holds_ofBranch (branch : Branch) : (ofBranch branch).Holds root none branch := by
  intro index element found
  have found' : (branch.layOut 0 none)[index]? = some element := found
  rw [ofBranch, element_mk, root, Nat.zero_add, found']
  rfl

/-! ## Document order -/

section Order

variable {tree : PageTree}

private theorem unstack_all {branches : List Branch}
    (each : ∀ branch ∈ branches, ∀ number parent fuel rest, tree.Holds number parent branch →
      tree.unstack (branch.size + fuel) (number :: rest) =
        List.range' number branch.size ++ tree.unstack fuel rest)
    (number parent fuel : Nat) (rest : List Nat) (holds : tree.HoldsAll number parent branches) :
    tree.unstack (Branch.sizeAll branches + fuel) (Branch.numbers number branches ++ rest) =
      List.range' number (Branch.sizeAll branches) ++ tree.unstack fuel rest := by
  induction branches generalizing number with
  | nil => simp [Branch.sizeAll, Branch.numbers]
  | cons head others inductionHypothesis =>
      rw [Branch.sizeAll, Branch.numbers, List.cons_append, Nat.add_assoc,
        each head (by simp) _ _ _ _ holds.head,
        inductionHypothesis (fun branch member => each branch (List.mem_cons_of_mem _ member)) _
          holds.tail,
        ← List.append_assoc, List.range'_append_1]

/-- Taking a branch off the stack takes its elements in the order of their numbers. -/
theorem unstack_branch (branch : Branch) (number : Nat) (parent : Option Nat) (fuel : Nat)
    (rest : List Nat) (holds : tree.Holds number parent branch) :
    tree.unstack (branch.size + fuel) (number :: rest) =
      List.range' number branch.size ++ tree.unstack fuel rest := by
  induction branch using Branch.induct generalizing number parent fuel rest with
  | node label children inductionHypothesis =>
      have below := unstack_all inductionHypothesis (number + 1) number fuel rest holds.children
      have size_add : (Branch.node label children).size + fuel =
          Branch.sizeAll children + fuel + 1 := by
        rw [Branch.size]
        omega
      rw [size_add, unstack, holds.element_eq]
      simp only [Branch.element, Branch.children]
      rw [below, Branch.size, List.range'_succ, List.cons_append]

theorem descendants_ofBranch (branch : Branch) :
    (ofBranch branch).descendants root = List.range (ofBranch branch).size := by
  have size_eq : (ofBranch branch).size = branch.size + 0 := by
    rw [ofBranch_eq_endingWith, size_endingWith]
    simp
  rw [descendants, size_eq, unstack_branch branch root none 0 [] (holds_ofBranch branch)]
  simp [unstack, root, List.range_eq_range']

end Order

/-! ## Checks -/

private theorem violations_layOutAll {branches : List Branch}
    (each : ∀ branch ∈ branches, ∀ number parent, ∀ element ∈ branch.layOut number parent,
      element.violations = []) (number parent : Nat) :
    ∀ element ∈ Branch.layOutAll number parent branches, element.violations = [] := by
  induction branches generalizing number with
  | nil => simp [Branch.layOutAll]
  | cons head rest inductionHypothesis =>
      intro element member
      rw [Branch.layOutAll] at member
      rcases List.mem_append.mp member with inHead | inRest
      · exact each head (by simp) _ _ element inHead
      · exact inductionHypothesis (fun branch member => each branch (List.mem_cons_of_mem _ member))
          _ element inRest

theorem violations_of_sound {branch : Branch} (sound : branch.Sound) (number : Nat)
    (parent : Option Nat) : ∀ element ∈ branch.layOut number parent, element.violations = [] := by
  induction branch using Branch.induct generalizing number parent with
  | node label children inductionHypothesis =>
      cases sound with
      | node admitted fit below =>
          intro element member
          rcases List.mem_cons.mp member with isTop | inside
          · rw [isTop]
            exact (Branch.violations_element_eq_nil_iff _ _ _).mpr fit
          · exact violations_layOutAll
              (fun child isChild => inductionHypothesis child isChild (below child isChild))
              _ _ element inside

/-! ## Places -/

section Places

variable {tree : PageTree}

private theorem placed_all {branches : List Branch} {parent number : Nat}
    (earlier : parent < number)
    (each : ∀ branch ∈ branches, ∀ number parent, tree.Holds number parent branch →
      ∀ other, number < other → other < number + branch.size → tree.Placed other)
    (admitted : ∀ branch ∈ branches, ∃ definition, branch.label.definition = some definition ∧
      Definition.Admits (tree.element parent).definition definition)
    (holds : tree.HoldsAll number parent branches) :
    ∀ other, number ≤ other → other < number + Branch.sizeAll branches → tree.Placed other := by
  induction branches generalizing number with
  | nil =>
      intro other notBelow below
      simp only [Branch.sizeAll] at below
      omega
  | cons head rest inductionHypothesis =>
      intro other notBelow below
      by_cases isFirst : other = number
      · obtain ⟨definition, known, admits⟩ := admitted head (by simp)
        refine ⟨parent, definition, by omega, ?_, ?_, admits⟩
        · rw [isFirst, holds.head.element_eq]
          rfl
        · rw [isFirst, holds.head.element_eq]
          exact known
      · by_cases inHead : other < number + head.size
        · exact each head (by simp) _ _ holds.head other (by omega) inHead
        · rw [Branch.sizeAll] at below
          exact inductionHypothesis (by omega)
            (fun branch member => each branch (List.mem_cons_of_mem _ member))
            (fun branch member => admitted branch (List.mem_cons_of_mem _ member))
            holds.tail other (by omega) (by omega)

theorem placed_of_sound {branch : Branch} (sound : branch.Sound) (number : Nat)
    (parent : Option Nat) (holds : tree.Holds number parent branch) :
    ∀ other, number < other → other < number + branch.size → tree.Placed other := by
  induction branch using Branch.induct generalizing number parent with
  | node label children inductionHypothesis =>
      cases sound with
      | node admitted fit below =>
          intro other isBelow inside
          rw [Branch.size] at inside
          refine placed_all (Nat.lt_succ_self number) ?_ ?_ holds.children other isBelow (by
            simp only [Branch.children]
            omega)
          · intro child isChild
            exact inductionHypothesis child isChild (below child isChild)
          · rw [holds.element_eq]
            exact admitted

end Places

/-- The tree of a sound branch is complete. -/
theorem validated_ofBranch {branch : Branch} (sound : branch.Sound) :
    (ofBranch branch).Validated where
  ordered := descendants_ofBranch branch
  complete := by
    intro number inside
    rw [validate_eq_ok_iff]
    apply violations_of_sound sound root none
    have bound : number < (branch.layOut 0 none).length := by
      simpa [ofBranch, size] using inside
    have listed : (branch.layOut 0 none)[number] ∈ branch.layOut 0 none := List.getElem_mem bound
    rw [ofBranch, element_mk, List.getElem?_eq_getElem bound]
    exact listed
  placed := by
    intro number notRoot inside
    apply placed_of_sound sound root none (holds_ofBranch branch) number notRoot
    rw [ofBranch_eq_endingWith, size_endingWith] at inside
    simpa [root] using inside

end PageTree

end LivePage
