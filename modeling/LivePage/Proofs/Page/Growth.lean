import LivePage.Proofs.Page.History

/-!
Contract: what comes to a page while components are made below a parent.

Owns:
- the settings of the page's own component that come from top-level `page` elements;
- pages that have new components below the parent, and are otherwise as before;
- edits add nothing else.

Does not own: which components are new, and what is left of them after a failure.
-/

namespace LivePage

/-! ## Set-up of the page's own component -/

/-- The settings that a component has now and did not have before come from attributes of
top-level `page` elements. -/
structure PageTree.SetUpBy (tree : PageTree) (before after : Component) : Prop where
  property : ∀ name, after.properties.get? name = before.properties.get? name ∨
    ∃ definition raw value, tree.SetsUp definition name raw ∧
      Setting.ofName name = .property name ∧ definition.typed? name raw = some value ∧
      after.properties.get? name = some value
  event : ∀ eventType, after.events.get? eventType = before.events.get? eventType ∨
    ∃ definition raw, tree.SetsUp definition ("on:" ++ eventType) raw ∧
      after.events.get? eventType = some raw
  domAttribute : ∀ name, after.domAttributes.get? name = before.domAttributes.get? name ∨
    ∃ definition raw, tree.SetsUp definition ("attr:" ++ name) raw ∧
      after.domAttributes.get? name = some raw
  controller : ∀ name, after.controllers.get? name = before.controllers.get? name ∨
    ∃ definition raw, tree.SetsUp definition ("controller:" ++ name) raw ∧
      after.controllers.get? name = some raw

namespace PageTree.SetUpBy

variable {tree : PageTree}

theorem refl (component : Component) : tree.SetUpBy component component :=
  ⟨fun _ => Or.inl rfl, fun _ => Or.inl rfl, fun _ => Or.inl rfl, fun _ => Or.inl rfl⟩

/-- Children are no settings. -/
theorem withChildren {before after : Component} (setUp : tree.SetUpBy before after)
    (children : List String) : tree.SetUpBy before { after with children := children } :=
  ⟨setUp.property, setUp.event, setUp.domAttribute, setUp.controller⟩

/-- One more attribute. -/
theorem takesOne {definition : Definition} {name raw : String} {before middle after : Component}
    (setUp : tree.SetUpBy before middle) (source : tree.SetsUp definition name raw)
    (takes : Component.TakesOne definition name raw middle after) :
    tree.SetUpBy before after where
  property := by
    intro other
    by_cases isProperty : Setting.ofName name = .property name
    · obtain ⟨value, typed, inserted⟩ := takes.property isProperty
      rw [inserted, Dict.get?_insert]
      by_cases isSet : other = name
      · rw [if_pos isSet, isSet]
        exact Or.inr ⟨definition, raw, value, source, isProperty, typed, rfl⟩
      · rw [if_neg isSet]
        exact setUp.property other
    · rw [takes.noProperty isProperty]
      exact setUp.property other
  event := by
    intro eventType
    rw [takes.event]
    by_cases isSet : name = "on:" ++ eventType
    · rw [if_pos isSet, ← isSet]
      exact Or.inr ⟨definition, raw, source, rfl⟩
    · rw [if_neg isSet]
      exact setUp.event eventType
  domAttribute := by
    intro other
    rw [takes.domAttribute]
    by_cases isSet : name = "attr:" ++ other
    · rw [if_pos isSet, ← isSet]
      exact Or.inr ⟨definition, raw, source, rfl⟩
    · rw [if_neg isSet]
      exact setUp.domAttribute other
  controller := by
    intro other
    rw [takes.controller]
    by_cases isSet : name = "controller:" ++ other
    · rw [if_pos isSet, ← isSet]
      exact Or.inr ⟨definition, raw, source, rfl⟩
    · rw [if_neg isSet]
      exact setUp.controller other

end PageTree.SetUpBy

namespace PageState

/-! ## Pages with new components -/

/-- What has become of a component that was there before: it may have new children if it is
the parent, and new settings if it is the page's own and the parent. -/
structure Kept (tree : PageTree) (origin : PageState) (parent id : String)
    (original component : Component) : Prop where
  children : ∃ added, component.children = original.children ++ added ∧
    (∀ child ∈ added, origin.component? child = none) ∧ (id ≠ parent → added = [])
  other : (id = origin.id → parent ≠ origin.id) →
    { component with children := original.children } = original
  own : id = origin.id → original.SameIdentity component ∧ tree.SetUpBy original component

/-- A page that has at most new components below the parent, besides those that were there
before. -/
structure Grown (tree : PageTree) (origin : PageState) (parent : String) (page : PageState) :
    Prop where
  intact : page.Intact
  id_eq : page.id = origin.id
  counter_le : origin.nextComponent ≤ page.nextComponent
  kept : ∀ id original, origin.component? id = some original →
    ∃ component, page.component? id = some component ∧
      Kept tree origin parent id original component
  added : ∀ id component, page.component? id = some component → origin.component? id = none →
    (∃ above, origin.component? parent = some above) ∧
      ∃ place, component.parent = some place ∧
        (place = parent ∨ origin.component? place = none)

/-- The parent, and no other one of the components that were there before, may get a new child. -/
theorem Kept.adopting {tree : PageTree} {origin : PageState} {parent id child : String}
    {original component : Component} (kept : Kept tree origin parent id original component)
    {adopts : Prop} [Decidable adopts] (onlyParent : adopts → id = parent)
    (isNew : origin.component? child = none) :
    Kept tree origin parent id original (component.adopting adopts child) := by
  by_cases isAdopting : adopts
  · rw [Component.adopting, if_pos isAdopting]
    have isParent := onlyParent isAdopting
    obtain ⟨added, children_eq, areNew, -⟩ := kept.children
    refine ⟨⟨added ++ [child], ?_, ?_, fun notParent => absurd isParent notParent⟩, kept.other, ?_⟩
    · rw [Component.addChild, children_eq, List.append_assoc]
    · intro other member
      rcases List.mem_append.mp member with isAdded | isLast
      · exact areNew other isAdded
      · rw [List.mem_singleton.mp isLast]
        exact isNew
    · intro isPage
      obtain ⟨same, setUp⟩ := kept.own isPage
      exact ⟨same.trans ⟨rfl, rfl, rfl, rfl⟩, setUp.withChildren _⟩
  · rw [Component.adopting, if_neg isAdopting]
    exact kept

namespace Grown

variable {tree : PageTree} {origin page : PageState} {parent : String}

theorem refl (intact : origin.Intact) : Grown tree origin parent origin where
  intact := intact
  id_eq := rfl
  counter_le := Nat.le_refl _
  kept := by
    intro id original found
    have noChildren : ∀ child ∈ ([] : List String), origin.component? child = none := by simp
    exact ⟨original, found, ⟨[], (List.append_nil _).symm, noChildren, fun _ => rfl⟩,
      fun _ => rfl, fun _ => ⟨.refl original, .refl original⟩⟩
  added := by
    intro id component found absent
    rw [found] at absent
    cases absent

/-- The page's own component is none of the new ones. -/
theorem ne_page_of_new (originIntact : origin.Intact) (grown : Grown tree origin parent page)
    {id : String} (isNew : origin.component? id = none) : id ≠ page.id := by
  intro isPage
  obtain ⟨own, foundOwn, -⟩ := originIntact.root
  rw [isPage, grown.id_eq, foundOwn] at isNew
  cases isNew

/-- Drawing numbers changes no component. -/
theorem drawId (grown : Grown tree origin parent page) : Grown tree origin parent page.drawId :=
  ⟨grown.intact.drawId, grown.id_eq, Nat.le_succ_of_le grown.counter_le, grown.kept, grown.added⟩

theorem attached (originIntact : origin.Intact) (grown : Grown tree origin parent page)
    {place : String} {above component : Component}
    (nextIntact : (page.drawId.attached place above component).Intact)
    (isOpen : Building.Open origin parent place) (foundAbove : page.component? place = some above)
    (isNew : component.id = page.nextId) :
    Grown tree origin parent (page.drawId.attached place above component) := by
  have newIsFresh : origin.component? component.id = none := by
    rw [isNew, nextId_eq, grown.id_eq]
    exact originIntact.fresh grown.counter_le
  have placeIsFresh : place ≠ parent → origin.component? place = none := by
    intro notParent
    obtain ⟨number, notDrawn, rfl⟩ := isOpen.resolve_left notParent
    exact originIntact.fresh notDrawn
  refine ⟨nextIntact, grown.id_eq, Nat.le_succ_of_le grown.counter_le, ?_, ?_⟩
  · intro id original found
    have notNew : id ≠ component.id := by
      intro same
      rw [same, newIsFresh] at found
      cases found
    obtain ⟨before, foundBefore, kept⟩ := grown.kept id original found
    refine ⟨_, component?_attached_of_found foundAbove notNew foundBefore,
      kept.adopting ?_ newIsFresh⟩
    intro isPlace
    by_cases isParent : id = parent
    · exact isParent
    · rw [isPlace] at isParent found
      rw [placeIsFresh isParent] at found
      cases found
  · intro id changed found absent
    rcases component?_attached_cases foundAbove found with
      ⟨-, rfl⟩ | ⟨-, present, foundPresent, rfl⟩
    · by_cases isParent : place = parent
      · have parentIsOld : ∃ old, origin.component? parent = some old := by
          cases foundParent : origin.component? parent with
          | some old => exact ⟨old, rfl⟩
          | none =>
              obtain ⟨old, foundOld⟩ := (grown.added place above foundAbove (isParent ▸ foundParent)).1
              exact ⟨old, foundParent.symm.trans foundOld⟩
        exact ⟨parentIsOld, place, rfl, Or.inl isParent⟩
      · have placeIsNew := placeIsFresh isParent
        exact ⟨(grown.added place above foundAbove placeIsNew).1, place, rfl, Or.inr placeIsNew⟩
    · obtain ⟨parentIsOld, home, hasParent, isGrown⟩ := grown.added id present foundPresent absent
      exact ⟨parentIsOld, home, (Component.adopting_parent ..).trans hasParent, isGrown⟩

theorem setUp (originIntact : origin.Intact) (grown : Grown tree origin parent page)
    {definition : Definition} {name raw : String} {own changed : Component}
    (nextIntact : (page.replace page.id changed).Intact) (isParent : parent = page.id)
    (source : tree.SetsUp definition name raw) (foundOwn : page.component? page.id = some own)
    (takes : Component.TakesOne definition name raw own changed) :
    Grown tree origin parent (page.replace page.id changed) := by
  have frame := takes.sameFrame
  refine ⟨nextIntact, grown.id_eq, grown.counter_le, ?_, ?_⟩
  · intro id original found
    obtain ⟨before, foundBefore, kept⟩ := grown.kept id original found
    rw [component?_replace]
    by_cases isPage : id = page.id
    · rw [if_pos isPage]
      rw [isPage, foundOwn] at foundBefore
      cases foundBefore
      have isOwn : id = origin.id := isPage.trans grown.id_eq
      obtain ⟨same, setUp⟩ := kept.own isOwn
      refine ⟨changed, rfl, ?_, fun elsewhere => absurd (isParent.trans grown.id_eq) (elsewhere isOwn),
        fun _ => ?_⟩
      · rw [frame.children]
        exact kept.children
      · exact ⟨same.trans frame.sameIdentity, setUp.takesOne source takes⟩
    · rw [if_neg isPage]
      exact ⟨before, foundBefore, kept⟩
  · intro id component found absent
    rw [component?_replace, if_neg (grown.ne_page_of_new originIntact absent)] at found
    exact grown.added id component found absent

/-- Edits let new components grow below the parent, and nothing else. -/
theorem edits (originIntact : origin.Intact) {building next : Building}
    (start : Grown tree origin parent building.page)
    (edits : Building.Edits tree origin parent building next) :
    Grown tree origin parent next.page := by
  induction edits with
  | refl => exact start
  | tail _ edit inductionHypothesis =>
      have nextIntact := edit.intact inductionHypothesis.intact
      cases edit with
      | draw => exact inductionHypothesis.drawId
      | attach alive isOpen foundAbove isNew noChildren =>
          exact inductionHypothesis.attached originIntact nextIntact isOpen foundAbove isNew
      | setUp isParent source foundOwn applied =>
          exact inductionHypothesis.setUp originIntact nextIntact isParent source foundOwn
            (Component.takesOne_of_apply applied)

end Grown

end PageState

end LivePage
