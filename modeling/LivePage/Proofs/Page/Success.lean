import LivePage.Proofs.Blueprint.Links
import LivePage.Proofs.Page.Making

/-!
Contract: what a making that succeeds has come through.

Owns:
- what each step has done if it succeeds;
- a making succeeds only if every property among the attributes has a typed value.

Does not own: whether typed values are enough.
-/

namespace LivePage

open PageTree

/-- Every property among the attributes of an element has a typed value. -/
def Element.Coerces (element : Element) : Prop :=
  ∀ definition, element.definition = some definition → definition.Coerces element.attributes

namespace Building

variable {tree : PageTree}

/-! ## Steps that succeed -/

section Success

variable {building last : Building} {ids : List String}

theorem forEach_cons_eq_ok_iff {step : Nat → BuildStep String} {number : Nat} {rest : List Nat} :
    forEach step (number :: rest) building = (last, .ok ids) ↔
      ∃ next id more, step number building = (next, .ok id) ∧
        forEach step rest next = (last, .ok more) ∧ ids = id :: more := by
  rw [forEach]
  dsimp only
  rcases step number building with ⟨next, error | id⟩
  · simp
  · dsimp only
    rcases outcome : forEach step rest next with ⟨reached, error | more⟩
    · simp [outcome]
    · simp [outcome, eq_comm]

theorem buildAll_cons_eq_ok_iff {parent : String} {number : Nat} {rest : List Nat} :
    buildAll tree parent (number :: rest) building = (last, .ok ids) ↔
      ∃ next first more, buildTopLevel tree parent number building = (next, .ok first) ∧
        buildAll tree parent rest next = (last, .ok more) ∧ ids = first ++ more := by
  rw [buildAll]
  dsimp only
  rcases buildTopLevel tree parent number building with ⟨next, error | first⟩
  · simp
  · dsimp only
    rcases outcome : buildAll tree parent rest next with ⟨reached, error | more⟩
    · simp [outcome]
    · simp [outcome, eq_comm]

theorem applyAllToPage_cons_eq_ok_iff {definition : Definition} {name raw : String}
    {rest : List (String × String)} :
    applyAllToPage definition ((name, raw) :: rest) building = (last, .ok ()) ↔
      ∃ next, applyToPage definition name raw building = (next, .ok ()) ∧
        applyAllToPage definition rest next = (last, .ok ()) := by
  rw [applyAllToPage]
  dsimp only
  rcases applyToPage definition name raw building with ⟨next, error | nothing⟩
  · simp
  · simp

/-- The component of an element is made, attached, and then filled. -/
theorem build_eq_ok_iff {fuel number : Nat} {place id : String} :
    build tree (fuel + 1) place number building = (last, .ok id) ↔
      building.page.isDestroyed = false ∧ id = building.page.nextId ∧
      ∃ definition component above, (tree.element number).definition = some definition ∧
        componentOf definition (tree.element number) id = .ok component ∧
        building.page.component? place = some above ∧
        ∃ ids, forEach (build tree fuel id) (tree.element number).children
          ⟨building.page.drawId.attached place above component,
            building.emitted ++ building.page.drawId.emit (.onClient PageState.createFunction
              [.str place, (component.under place).payload])⟩ = (last, .ok ids) := by
  rw [build]
  dsimp only
  cases (tree.element number).definition with
  | none => simp
  | some definition =>
      dsimp only
      constructor
      · intro made
        split at made
        · cases made
        · next component single =>
            split at made
            · cases made
            · next next attached =>
                split at made
                · cases made
                · next reached ids content =>
                    cases made
                    unfold take at attached
                    split at attached
                    · next page emitted isAttached =>
                        cases attached
                        obtain ⟨alive, above, found, rfl, rfl⟩ :=
                          PageState.attach_eq_ok_iff.mp isAttached
                        exact ⟨alive, rfl, definition, component, above, rfl, single, found, ids,
                          content⟩
                    · cases attached
      · rintro ⟨alive, rfl, _, component, above, ⟨⟩, single, found, ids, content⟩
        have attached : building.page.drawId.attach place component =
            .ok (building.page.drawId.attached place above component,
              building.page.drawId.emit (.onClient PageState.createFunction
                [.str place, (component.under place).payload])) :=
          PageState.attach_eq_ok_iff.mpr ⟨alive, above, found, rfl, rfl⟩
        simp only [single, attached, take, content]

end Success

/-! ## Values that are needed -/

theorem steps_of_forEach {step : Nat → BuildStep String} {numbers : List Nat}
    {building last : Building} {ids : List String}
    (made : forEach step numbers building = (last, .ok ids)) :
    ∀ number ∈ numbers, ∃ before after id, step number before = (after, .ok id) := by
  induction numbers generalizing building last ids with
  | nil => simp
  | cons number rest inductionHypothesis =>
      obtain ⟨next, id, more, first, others, -⟩ := forEach_cons_eq_ok_iff.mp made
      intro other member
      rcases List.mem_cons.mp member with isFirst | inRest
      · exact ⟨building, next, id, isFirst ▸ first⟩
      · exact inductionHypothesis others other inRest

theorem coerces_of_build {fuel : Nat} {place : String} {number : Nat} {building last : Building}
    {id : String} (made : build tree fuel place number building = (last, .ok id)) :
    ∀ other ∈ tree.subtreeBy fuel number, (tree.element other).Coerces := by
  induction fuel generalizing place number building last id with
  | zero => cases made
  | succ fuel inductionHypothesis =>
      obtain ⟨-, -, definition, component, above, isDefined, single, -, ids, content⟩ :=
        build_eq_ok_iff.mp made
      intro other member
      rcases List.mem_cons.mp member with isTop | isBelow
      · rw [isTop]
        intro known isKnown
        rw [isDefined] at isKnown
        cases isKnown
        exact (Component.exists_applyAll_iff _).mp ⟨component, single⟩
      · obtain ⟨child, isChild, inChild⟩ := List.mem_flatMap.mp isBelow
        obtain ⟨before, after, childId, childMade⟩ := steps_of_forEach content child isChild
        exact inductionHypothesis childMade other inChild

/-- An attribute that was applied to the page had a typed value, if it had to. -/
theorem coerces_of_applyAllToPage {definition : Definition} {entries : List (String × String)}
    {building last : Building}
    (applied : applyAllToPage definition entries building = (last, .ok ())) :
    ∀ entry ∈ entries, Setting.ofName entry.1 = .property entry.1 →
      (definition.typed? entry.1 entry.2).isSome := by
  induction entries generalizing building with
  | nil => simp
  | cons entry rest inductionHypothesis =>
      obtain ⟨name, raw⟩ := entry
      obtain ⟨next, outcome, others⟩ := applyAllToPage_cons_eq_ok_iff.mp applied
      obtain ⟨own, changed, -, isApplied, -⟩ := applied_of_applyToPage outcome
      intro other member
      rcases List.mem_cons.mp member with rfl | inRest
      · exact (Component.exists_apply_iff own).mp ⟨changed, isApplied⟩
      · exact inductionHypothesis others other inRest

theorem coerces_of_buildTopLevel {parent : String} {number : Nat} {building last : Building}
    {ids : List String}
    (made : buildTopLevel tree parent number building = (last, .ok ids)) (linked : tree.Linked) :
    ∀ other ∈ tree.subtree number, (tree.element other).Coerces := by
  have below_of_forEach : ∀ {numbers before after ids},
      forEach (build tree tree.size parent) numbers before = (after, .ok ids) →
      ∀ top ∈ numbers, ∀ other ∈ tree.subtree top, (tree.element other).Coerces := by
    intro numbers before after ids content top isTop
    obtain ⟨first, second, id, topMade⟩ := steps_of_forEach content top isTop
    exact coerces_of_build topMade
  unfold buildTopLevel at made
  dsimp only at made
  split at made
  · split at made
    · cases made
    · next next applied =>
        intro other member
        rw [linked.subtree_eq number] at member
        rcases List.mem_cons.mp member with isTop | isBelow
        · rw [isTop]
          intro definition isDefined
          rw [isDefined] at applied
          intro name raw found isProperty
          exact coerces_of_applyAllToPage applied (name, raw) (Dict.mem_toList.mpr found) isProperty
        · obtain ⟨child, isChild, inChild⟩ := List.mem_flatMap.mp isBelow
          exact below_of_forEach made child isChild other inChild
  · exact below_of_forEach made number (List.mem_singleton.mpr rfl)

theorem coerces_of_buildAll {parent : String} {numbers : List Nat} {building last : Building}
    {ids : List String} (made : buildAll tree parent numbers building = (last, .ok ids))
    (linked : tree.Linked) :
    ∀ number ∈ numbers, ∀ other ∈ tree.subtree number, (tree.element other).Coerces := by
  induction numbers generalizing building last ids with
  | nil => simp
  | cons number rest inductionHypothesis =>
      obtain ⟨next, first, more, topMade, others, -⟩ := buildAll_cons_eq_ok_iff.mp made
      intro top member
      rcases List.mem_cons.mp member with isFirst | inRest
      · rw [isFirst]
        exact coerces_of_buildTopLevel topMade linked
      · exact inductionHypothesis others top inRest

end Building

end LivePage
