import LivePage.Blueprint.Tree
import LivePage.Proofs.Component.Violations

/-!
Contract: what a parent demands of its children.

Owns:
- which children may stand in a parent, apart from how many there are;
- the counts of tags that one insertion for each child leaves behind;
- the two checks of counts: room for more children while they are added, and the
  ranges of all counts in the end.

Does not own: the order in which children are added, and the tree that holds them.
-/

namespace LivePage

/-! ## Counts of tags -/

namespace Dict

/-- How often each tag occurs, counted one tag at a time. -/
def tally (tags : List String) : Dict Nat :=
  tags.foldl (fun counts tag => counts.insert tag ((counts.get? tag).getD 0 + 1)) .empty

theorem tally_append_singleton (tags : List String) (tag : String) :
    tally (tags ++ [tag]) =
      (tally tags).insert tag (((tally tags).get? tag).getD 0 + 1) := by
  simp [tally]

private theorem get?_foldl_count (tags : List String) (tag : String) (counts : Dict Nat) :
    (tags.foldl (fun counts tag => counts.insert tag ((counts.get? tag).getD 0 + 1)) counts).get?
        tag =
      if tag ∈ tags then some ((counts.get? tag).getD 0 + tags.count tag)
      else counts.get? tag := by
  induction tags generalizing counts with
  | nil => simp
  | cons head rest inductionHypothesis =>
      rw [List.foldl_cons, inductionHypothesis, get?_insert]
      by_cases isHead : tag = head
      · subst isHead
        by_cases inRest : tag ∈ rest
        · simp [inRest]
          omega
        · simp [inRest, List.count_eq_zero_of_not_mem inRest]
      · simp [isHead, Ne.symm isHead]

theorem get?_tally (tags : List String) (tag : String) :
    (tally tags).get? tag = if tag ∈ tags then some (tags.count tag) else none := by
  unfold tally
  rw [get?_foldl_count]
  simp

theorem contains_tally {tags : List String} {tag : String} :
    (tally tags).contains tag = true ↔ tag ∈ tags := by
  rw [contains, get?_tally]
  by_cases member : tag ∈ tags <;> simp [member]

theorem getD_tally (tags : List String) (tag : String) :
    ((tally tags).get? tag).getD 0 = tags.count tag := by
  rw [get?_tally]
  by_cases member : tag ∈ tags
  · simp [member]
  · simp [member, List.count_eq_zero_of_not_mem member]

end Dict

/-! ## Single children -/

namespace Cardinality

theorem allowsUpTo_of_le {cardinality : Cardinality} {fewer more : Nat} (le : fewer ≤ more)
    (allows : cardinality.allowsUpTo more = true) : cardinality.allowsUpTo fewer = true := by
  unfold allowsUpTo at allows ⊢
  cases most : cardinality.max with
  | none => rfl
  | some max =>
      rw [most] at allows
      exact decide_eq_true (Nat.le_trans le (of_decide_eq_true allows))

theorem allowsUpTo_zero (cardinality : Cardinality) : cardinality.allowsUpTo 0 = true := by
  unfold allowsUpTo
  cases cardinality.max <;> simp

theorem allowsUpTo_of_contains {cardinality : Cardinality} {count : Nat}
    (contained : cardinality.contains count = true) : cardinality.allowsUpTo count = true := by
  unfold contains at contained
  exact (Bool.and_eq_true _ _ ▸ contained).2

end Cardinality

namespace Definition

/-- The tag that a parent goes by; the root has no definition. -/
def parentTag : Option Definition → String
  | some definition => definition.tag
  | none => rootTag

/-- A definition that restricts the parents allows the listed ones, any other one allows all. -/
theorem allowsParent_eq_true_iff {definition : Definition} {tag : String} :
    definition.allowsParent tag = true ↔
      ∀ parents, definition.parents = some parents → tag ∈ parents := by
  unfold allowsParent
  cases definition.parents <;> simp

/-- Whether a child may stand in a parent at all: the parent's tag is among the parents
that the child restricts itself to, if it does, and the parent has a range for the
child's tag. The root has a range for every tag. -/
structure Admits (parent : Option Definition) (child : Definition) : Prop where
  parentAllowed : ∀ parents, child.parents = some parents → parentTag parent ∈ parents
  hasRange : ∀ definition, parent = some definition →
    (definition.cardinalityFor child.tag).isSome = true

/-- Whether the tags of all children keep to the ranges: every tag that occurs or
that the definition declares has a count inside the range that applies to it. -/
def CountsFit (definition : Definition) (tags : List String) : Prop :=
  ∀ tag cardinality, tag ∈ tags ∨ (definition.children.get? tag).isSome = true →
    definition.cardinalityFor tag = some cardinality →
    cardinality.contains (tags.count tag) = true

theorem accept_eq_ok_iff (parent child : Definition) (count : Nat) :
    parent.accept child count = .ok () ↔
      Admits (some parent) child ∧
        ∀ cardinality, parent.cardinalityFor child.tag = some cardinality →
          cardinality.allowsUpTo count = true := by
  unfold accept
  cases range : parent.cardinalityFor child.tag with
  | none =>
      constructor
      · intro accepted
        cases accepted
      · rintro ⟨admitted, -⟩
        have hasRange := admitted.hasRange parent rfl
        rw [range] at hasRange
        cases hasRange
  | some cardinality =>
      have admits_iff : Admits (some parent) child ↔ child.allowsParent parent.tag = true := by
        rw [allowsParent_eq_true_iff]
        constructor
        · exact fun admitted => admitted.parentAllowed
        · intro allowed
          refine ⟨allowed, ?_⟩
          rintro _ ⟨⟩
          rw [range]
          rfl
      rw [admits_iff]
      cases allowed : child.allowsParent parent.tag with
      | false => simp
      | true =>
          cases most : cardinality.max with
          | none => simp [Cardinality.allowsUpTo, most]
          | some max => simp [Cardinality.allowsUpTo, most]

/-! ## All children of an element -/

/-- There are no violations exactly when all counts lie in their ranges. -/
theorem violations_tally_eq_nil_iff (definition : Definition) (tags : List String) :
    definition.violations (Dict.tally tags) = [] ↔ definition.CountsFit tags := by
  rw [List.eq_nil_iff_forall_not_mem]
  constructor
  · intro noViolation tag cardinality relevant range
    cases outside : cardinality.contains (tags.count tag) with
    | true => rfl
    | false =>
        have violates : definition.Violates (Dict.tally tags) ⟨tag, cardinality, tags.count tag⟩ :=
          ⟨relevant.imp_left Dict.contains_tally.mpr, range, (Dict.getD_tally tags tag).symm,
            (Cardinality.contains_eq_false_iff _ _).mp outside⟩
        exact absurd (mem_violations_iff.mpr violates) (noViolation _)
  · intro fit violation member
    obtain ⟨relevant, range, counted, outside⟩ := mem_violations_iff.mp member
    have contained := fit violation.tag violation.cardinality
      (relevant.imp_left Dict.contains_tally.mp) range
    rw [← Cardinality.contains_eq_false_iff, counted, Dict.getD_tally, contained] at outside
    cases outside

end Definition

/-! ## Room for more children -/

namespace Element

/-- Whether children with the given tags can still be added one after another
without exceeding the upper end of a range. -/
def HasRoom (element : Element) (tags : List String) : Prop :=
  ∀ definition, element.definition = some definition → ∀ tag ∈ tags, ∀ cardinality,
    definition.cardinalityFor tag = some cardinality →
    cardinality.allowsUpTo (element.childCount tag + tags.count tag) = true

theorem hasRoom_nil (element : Element) : element.HasRoom [] := by
  intro _ _ tag member
  simp at member

theorem accept_eq_ok_iff (element : Element) (child : Definition) :
    element.accept child = .ok () ↔
      Definition.Admits element.definition child ∧ element.HasRoom [child.tag] := by
  unfold accept
  cases known : element.definition with
  | none =>
      have room : element.HasRoom [child.tag] := by
        intro definition isSome
        rw [known] at isSome
        cases isSome
      have admits_iff : Definition.Admits none child ↔
          child.allowsParent Definition.rootTag = true := by
        rw [Definition.allowsParent_eq_true_iff]
        constructor
        · exact fun admitted => admitted.parentAllowed
        · exact fun allowed => ⟨allowed, fun _ isSome => nomatch isSome⟩
      rw [admits_iff]
      cases allowed : child.allowsParent Definition.rootTag <;> simp [room]
  | some definition =>
      have room_iff : element.HasRoom [child.tag] ↔
          ∀ cardinality, definition.cardinalityFor child.tag = some cardinality →
            cardinality.allowsUpTo (element.childCount child.tag + 1) = true := by
        simp [HasRoom, known]
      rw [room_iff]
      exact Definition.accept_eq_ok_iff definition child _

/-- Room for two groups of children is room for the first one, and room for the
second one once the first is there. -/
theorem hasRoom_append_iff {before after : Element} {first second : List String}
    (sameDefinition : after.definition = before.definition)
    (counted : ∀ tag, after.childCount tag = before.childCount tag + first.count tag) :
    before.HasRoom (first ++ second) ↔ before.HasRoom first ∧ after.HasRoom second := by
  constructor
  · intro room
    constructor
    · intro definition known tag member cardinality range
      have allows := room definition known tag (List.mem_append_left _ member) cardinality range
      refine Cardinality.allowsUpTo_of_le ?_ allows
      rw [List.count_append]
      omega
    · intro definition known tag member cardinality range
      rw [sameDefinition] at known
      have allows := room definition known tag (List.mem_append_right _ member) cardinality range
      rwa [counted, Nat.add_assoc, ← List.count_append]
  · rintro ⟨firstRoom, secondRoom⟩ definition known tag member cardinality range
    by_cases inSecond : tag ∈ second
    · have allows := secondRoom definition (sameDefinition.trans known) tag inSecond
        cardinality range
      rwa [counted, Nat.add_assoc, ← List.count_append] at allows
    · have inFirst : tag ∈ first := (List.mem_append.mp member).resolve_right inSecond
      have allows := firstRoom definition known tag inFirst cardinality range
      rwa [List.count_append, List.count_eq_zero_of_not_mem inSecond, Nat.add_zero]

/-- A new element has room for children whose counts fit as a whole. -/
theorem hasRoom_of_countsFit {element : Element} {definition : Definition} {tags : List String}
    (known : element.definition = some definition)
    (fresh : ∀ tag, element.childCount tag = 0) (fit : definition.CountsFit tags) :
    element.HasRoom tags := by
  intro other isOther tag member cardinality range
  rw [known] at isOther
  cases isOther
  rw [fresh, Nat.zero_add]
  exact Cardinality.allowsUpTo_of_contains (fit tag cardinality (Or.inl member) range)

end Element

end LivePage
