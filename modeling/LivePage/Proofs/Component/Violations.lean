import LivePage.Component.Definition

/-!
Contract: the violations among observed counts.

Owns:
- what violates a definition: a count outside the range that applies to its tag;
- the list of violations holds exactly these, and names no tag twice.

Does not own: where counts come from.
-/

namespace LivePage

namespace Cardinality

theorem contains_eq_false_iff (cardinality : Cardinality) (count : Nat) :
    cardinality.contains count = false ↔
      count < cardinality.min ∨ ∃ max, cardinality.max = some max ∧ max < count := by
  unfold contains allowsUpTo
  cases cardinality.max with
  | none => simp
  | some max => simp; omega

theorem contains_zero_iff (cardinality : Cardinality) :
    cardinality.contains 0 = true ↔ cardinality.isRequired = false := by
  unfold contains isRequired allowsUpTo
  cases cardinality.max <;> simp

end Cardinality

namespace Definition

/-- A tag that is observed or declared has a count outside the range that applies to it. That is
its own range, else that of any child; what was not observed occurs zero times. -/
structure Violates (definition : Definition) (counts : Dict Nat)
    (violation : CardinalityViolation) : Prop where
  relevant : counts.contains violation.tag = true ∨
    definition.children.contains violation.tag = true
  range : (definition.children.get? violation.tag).or definition.anyChild =
    some violation.cardinality
  counted : violation.count = (counts.get? violation.tag).getD 0
  outside : violation.count < violation.cardinality.min ∨
    ∃ max, violation.cardinality.max = some max ∧ max < violation.count

/-! ## The two parts of the list -/

/-- The violations of tags that were observed. -/
def observedViolations (definition : Definition) (counts : Dict Nat) : List CardinalityViolation :=
  counts.toList.filterMap (fun observed => definition.violation? observed.1 observed.2)

/-- The violations of required tags that were not observed. -/
def missingViolations (definition : Definition) (counts : Dict Nat) : List CardinalityViolation :=
  definition.children.toList.filterMap (fun declared =>
    if declared.2.isRequired && !counts.contains declared.1 then some ⟨declared.1, declared.2, 0⟩
    else none)

theorem violations_eq (definition : Definition) (counts : Dict Nat) :
    definition.violations counts =
      definition.observedViolations counts ++ definition.missingViolations counts := rfl

variable {definition : Definition} {counts : Dict Nat} {violation : CardinalityViolation}

theorem violation?_eq_some_iff {tag : String} {count : Nat} :
    definition.violation? tag count = some violation ↔
      violation.tag = tag ∧ violation.count = count ∧
        definition.cardinalityFor tag = some violation.cardinality ∧
        violation.cardinality.contains count = false := by
  unfold violation?
  cases definition.cardinalityFor tag with
  | none => simp
  | some cardinality =>
      dsimp only
      split
      · next contained =>
          constructor
          · intro impossible
            cases impossible
          · rintro ⟨-, -, ⟨⟩, outside⟩
            rw [contained] at outside
            cases outside
      · next outside =>
          constructor
          · rintro ⟨⟩
            exact ⟨rfl, rfl, rfl, by simpa using outside⟩
          · rintro ⟨rfl, rfl, ⟨⟩, -⟩
            rfl

theorem mem_observedViolations :
    violation ∈ definition.observedViolations counts ↔
      counts.get? violation.tag = some violation.count ∧
        definition.cardinalityFor violation.tag = some violation.cardinality ∧
        violation.cardinality.contains violation.count = false := by
  rw [observedViolations, List.mem_filterMap]
  constructor
  · rintro ⟨⟨tag, count⟩, observed, violates⟩
    obtain ⟨rfl, rfl, range, outside⟩ := violation?_eq_some_iff.mp violates
    exact ⟨Dict.mem_toList.mp observed, range, outside⟩
  · rintro ⟨observed, range, outside⟩
    exact ⟨_, Dict.mem_toList.mpr observed, violation?_eq_some_iff.mpr ⟨rfl, rfl, range, outside⟩⟩

theorem mem_missingViolations :
    violation ∈ definition.missingViolations counts ↔
      definition.children.get? violation.tag = some violation.cardinality ∧
        counts.contains violation.tag = false ∧ violation.count = 0 ∧
        violation.cardinality.contains 0 = false := by
  rw [missingViolations, List.mem_filterMap]
  constructor
  · rintro ⟨⟨tag, cardinality⟩, declared, violates⟩
    split at violates
    · next isMissing =>
        cases violates
        rw [Bool.and_eq_true, Bool.not_eq_true', ← Bool.not_eq_false,
          ← Cardinality.contains_zero_iff, Bool.not_eq_true] at isMissing
        exact ⟨Dict.mem_toList.mp declared, isMissing.2, rfl, isMissing.1⟩
    · cases violates
  · obtain ⟨tag, cardinality, count⟩ := violation
    rintro ⟨declared, unobserved, rfl, outside⟩
    have required : cardinality.isRequired = true := by
      rw [← Bool.not_eq_false, ← Cardinality.contains_zero_iff, outside]
      exact Bool.false_ne_true
    exact ⟨(tag, cardinality), Dict.mem_toList.mpr declared, by simp [required, unobserved]⟩

/-! ## The list -/

/-- The list holds exactly what violates the definition. -/
theorem mem_violations_iff : violation ∈ definition.violations counts ↔
    definition.Violates counts violation := by
  rw [violations_eq, List.mem_append, mem_observedViolations, mem_missingViolations]
  constructor
  · rintro (⟨observed, range, outside⟩ | ⟨declared, unobserved, isZero, outside⟩)
    · refine ⟨Or.inl ?_, range, ?_, (Cardinality.contains_eq_false_iff _ _).mp outside⟩
      · rw [Dict.contains, observed]
        rfl
      · rw [observed]
        rfl
    · have absent : counts.get? violation.tag = none := by simpa [Dict.contains] using unobserved
      refine ⟨Or.inr ?_, ?_, ?_, ?_⟩
      · rw [Dict.contains, declared]
        rfl
      · rw [declared]
        rfl
      · rw [absent, isZero]
        rfl
      · rw [isZero]
        exact (Cardinality.contains_eq_false_iff _ _).mp outside
  · rintro ⟨relevant, range, counted, outside⟩
    rw [← Cardinality.contains_eq_false_iff] at outside
    cases observed : counts.get? violation.tag with
    | some count =>
        rw [observed] at counted
        exact Or.inl ⟨congrArg some counted.symm, range, outside⟩
    | none =>
        have unobserved : counts.contains violation.tag = false := by simp [Dict.contains, observed]
        rw [unobserved] at relevant
        obtain ⟨own, declared⟩ :=
          Option.isSome_iff_exists.mp (relevant.resolve_left Bool.false_ne_true)
        rw [declared] at range
        obtain rfl := Option.some.inj range
        rw [observed] at counted
        rw [counted] at outside
        exact Or.inr ⟨declared, unobserved, counted, outside⟩

/-- What is made of the entries of a map keeps their order, so it names no key twice. -/
private theorem ascending_tags {α : Type u} (dict : Dict α)
    {violates : String × α → Option CardinalityViolation}
    (keepsTag : ∀ entry violation, violates entry = some violation → violation.tag = entry.1) :
    (dict.toList.filterMap violates).Pairwise (fun earlier later => earlier.tag < later.tag) := by
  refine List.pairwise_filterMap.mpr (dict.ascending.imp ?_)
  intro earlier later less violation ofEarlier other ofLater
  rw [keepsTag _ _ ofEarlier, keepsTag _ _ ofLater]
  exact less

/-- No tag is named twice. -/
theorem nodup_violations (definition : Definition) (counts : Dict Nat) :
    ((definition.violations counts).map CardinalityViolation.tag).Nodup := by
  have distinct : ∀ {earlier later : CardinalityViolation}, earlier.tag < later.tag →
      earlier.tag ≠ later.tag := by
    intro earlier later less same
    exact String.lt_irrefl _ (same ▸ less)
  refine List.pairwise_map.mpr ?_
  rw [violations_eq, List.pairwise_append]
  refine ⟨?_, ?_, ?_⟩
  · refine (ascending_tags counts ?_).imp distinct
    intro observed violation violates
    exact (violation?_eq_some_iff.mp violates).1
  · refine (ascending_tags definition.children ?_).imp distinct
    intro declared violation violates
    split at violates
    · cases violates
      rfl
    · cases violates
  · -- Only tags that were not observed are missing.
    intro observed isObserved missing isMissing same
    have present := (mem_observedViolations.mp isObserved).1
    have absent := (mem_missingViolations.mp isMissing).2.1
    rw [← same, Dict.contains, present] at absent
    cases absent

end Definition

end LivePage
