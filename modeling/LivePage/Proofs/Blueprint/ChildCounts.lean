import LivePage.Proofs.Blueprint.TreeCalls

/-!
Contract: the check of the children of an element.

Owns:
- the counts of an element are those of the tags of its children;
- the check of an element fails exactly when these counts violate its definition, and
  then there are too few children of a tag, never too many;
- the list of violations names what violates a definition, whatever the counts are.

Does not own: which children an element takes.
-/

namespace LivePage

namespace PageTree

/-- The tags of the children of an element. -/
def childTags (tree : PageTree) (number : Nat) : List String :=
  (tree.element number).children.map (fun child => (tree.element child).tag)

/-- The observed counts of every element are those of the tags of its children. -/
def CountsTags (tree : PageTree) : Prop :=
  ∀ number, (tree.element number).childCounts = Dict.tally (tree.childTags number)

namespace CountsTags

variable {tree : PageTree}

theorem empty : PageTree.empty.CountsTags := by
  intro number
  by_cases inside : number < PageTree.empty.size
  · rw [Nat.lt_one_iff.mp inside]
    rfl
  · rw [childTags, element_of_outside (Nat.le_of_not_lt inside)]
    rfl

/-- What is written into an element besides its definition and its children does not matter. -/
theorem modify (counts : tree.CountsTags) (changed : Nat) {change : Element → Element}
    (sameDefinition : ∀ element, (change element).definition = element.definition)
    (sameChildren : ∀ element, (change element).children = element.children)
    (sameCounts : ∀ element, (change element).childCounts = element.childCounts) :
    (tree.modify changed change).CountsTags := by
  intro number
  have sameTag : ∀ other, ((tree.modify changed change).element other).tag =
      (tree.element other).tag :=
    view_modify tree changed Element.tag (fun element => by rw [Element.tag, sameDefinition]; rfl)
  rw [view_modify tree changed Element.childCounts sameCounts, counts, childTags, childTags,
    view_modify tree changed Element.children sameChildren]
  simp only [sameTag]

theorem addChild (counts : tree.CountsTags) (linked : tree.Linked) {next : PageTree} {parent : Nat}
    {child : Definition} (inside : parent < tree.size)
    (added : tree.addChild parent child = .ok next) : next.CountsTags := by
  obtain ⟨-, rfl⟩ := (addChild_eq_ok_iff tree next parent child).mp added
  have isNew := element_addBranch_size inside (.bare (some child))
  have before := fun {number} (numberInside : number < tree.size) =>
    element_addBranch inside numberInside (.bare (some child))
  have gains := gains_addBranch inside child
  -- The children that were there keep their tags.
  have sameTags : ∀ {number}, number < tree.size →
      (tree.element number).children.map
          (fun other => ((tree.addBranch parent (.bare (some child))).element other).tag) =
        tree.childTags number := by
    intro number numberInside
    refine List.map_congr_left ?_
    intro other isOld
    rw [Element.tag, gains.definition_eq (linked.listed isOld).2.1]
    rfl
  intro number
  rw [childTags]
  by_cases numberInside : number < tree.size
  · rw [before numberInside]
    split
    · next isParent =>
        have newTag : ((tree.addBranch parent (.bare (some child))).element tree.size).tag =
            child.tag := by
          rw [isNew]
          rfl
        simp only [Element.withChild, Element.childCount, List.map_append, List.map_cons,
          List.map_nil, sameTags numberInside, newTag, Dict.tally_append_singleton, counts number]
        rfl
    · rw [counts number, sameTags numberInside]
  · have outside := Nat.le_of_not_lt numberInside
    rw [(gains.childless outside).1]
    by_cases isLast : number = tree.size
    · rw [isLast, isNew]
      rfl
    · rw [element_addBare_of_lt inside child (by omega)]
      rfl

end CountsTags

theorem Made.countsTags {tree : PageTree} (made : tree.Made) : tree.CountsTags := by
  induction made with
  | empty => exact .empty
  | addChild made inside added counts => exact counts.addChild made.linked inside added
  | setAttribute _ number name value counts =>
      exact counts.modify number (fun _ => rfl) (fun _ => rfl) (fun _ => rfl)
  | appendAttribute _ number name value counts =>
      exact counts.modify number (fun _ => rfl) (fun _ => rfl) (fun _ => rfl)
  | pushArgument _ number argument counts =>
      exact counts.modify number (fun _ => rfl) (fun _ => rfl) (fun _ => rfl)
  | addTagLibrary _ number library counts =>
      exact counts.modify number (fun _ => rfl) (fun _ => rfl) (fun _ => rfl)

/-! ## The check -/

/-- The check of an element fails with the violations of its definition, if there are any. -/
theorem validate_eq_error_iff (tree : PageTree) (number : Nat) (error : ParseError) :
    tree.validate number = .error error ↔
      ∃ definition, (tree.element number).definition = some definition ∧
        definition.violations (tree.element number).childCounts ≠ [] ∧
        error = .cardinality definition.tag
          (definition.violations (tree.element number).childCounts) := by
  simp only [validate, Element.violations, Element.tag]
  generalize (tree.element number).childCounts = counts
  cases (tree.element number).definition with
  | none => simp
  | some definition =>
      dsimp only
      cases isList : definition.violations counts with
      | nil => simp [isList]
      | cons violation rest =>
          constructor
          · rintro ⟨⟩
            exact ⟨definition, rfl, by rw [isList]; exact List.cons_ne_nil _ _, by rw [isList]⟩
          · rintro ⟨_, ⟨⟩, -, rfl⟩
            rw [isList]

/-- Only a count below its range is left to be found by the check. -/
theorem lt_min_of_mem_violations {tree : PageTree} (made : tree.Made) {number : Nat}
    {definition : Definition} (known : (tree.element number).definition = some definition)
    {violation : CardinalityViolation}
    (member : violation ∈ definition.violations (Dict.tally (tree.childTags number))) :
    violation.count < violation.cardinality.min := by
  obtain ⟨-, range, counted, tooFew | ⟨max, isMax, tooMany⟩⟩ :=
    Definition.mem_violations_iff.mp member
  · exact tooFew
  · have allows := made.tallied.inRange known range
    rw [Cardinality.allowsUpTo, isMax, Element.childCount, made.countsTags, ← counted] at allows
    exact absurd (of_decide_eq_true allows) (Nat.not_le.mpr tooMany)

/-- The violations of a definition by any counts name no tag twice, and are exactly those of the
tags that are observed or declared and whose count lies outside the range that applies. The check
of an element, after any calls on elements that are there, fails exactly when the tags of its
children violate its definition; it then reports these violations, and every reported count lies
below its range. -/
theorem children_are_checked_by_counts (definition : Definition) (counts : Dict Nat)
    {calls : List TreeCall} (existing : PageTree.empty.HasElementsFor calls) :
    (((definition.violations counts).map CardinalityViolation.tag).Nodup ∧
      ∀ violation, violation ∈ definition.violations counts ↔
        definition.Violates counts violation) ∧
    let tree := PageTree.empty.performAll calls
    ∀ number, number < tree.size →
      let observed := Dict.tally (tree.childTags number)
      (∀ error, tree.validate number = .error error ↔
        ∃ own, (tree.element number).definition = some own ∧ own.violations observed ≠ [] ∧
          error = .cardinality own.tag (own.violations observed)) ∧
      ∀ own, (tree.element number).definition = some own →
        ∀ violation ∈ own.violations observed, violation.count < violation.cardinality.min := by
  refine ⟨⟨Definition.nodup_violations definition counts,
    fun _ => Definition.mem_violations_iff⟩, ?_⟩
  intro tree number _ observed
  have made : tree.Made := Made.performAll .empty existing
  refine ⟨?_, fun own known violation => lt_min_of_mem_violations made known⟩
  intro error
  rw [validate_eq_error_iff, made.countsTags number]

/-- A bar with an icon, but without the button that it needs, fails the check. -/
theorem bar_without_button_fails_check :
    let bar := ((Definition.basic "bar" "Bar").withChild "button" ⟨1, some 2⟩).withAnyChild .optional
    let calls : List TreeCall := [.addChild 0 bar, .addChild 1 (Definition.basic "icon" "Icon")]
    let tree := PageTree.empty.performAll calls
    let missing : List CardinalityViolation := [⟨"button", ⟨1, some 2⟩, 0⟩]
    PageTree.empty.HasElementsFor calls ∧ tree.validate 1 = .error (.cardinality "bar" missing) ∧
      ∀ violation ∈ missing, violation.count < violation.cardinality.min := by
  intro bar calls tree missing
  have existing : PageTree.empty.HasElementsFor calls := by
    refine ⟨?_, ?_, trivial⟩ <;> decide +kernel
  have known : (tree.element 1).definition = some bar := by decide +kernel
  have isMissing : bar.violations (Dict.tally (tree.childTags 1)) = missing := by decide +kernel
  obtain ⟨fails, below⟩ :=
    (children_are_checked_by_counts bar .empty existing).2 1 (by decide +kernel)
  refine ⟨existing, (fails _).mpr ⟨bar, known, ?_, ?_⟩, ?_⟩
  · rw [isMissing]
    exact List.cons_ne_nil _ _
  · rw [isMissing]
    rfl
  · rw [← isMissing]
    exact below bar known

end PageTree

end LivePage
