import LivePage.Proofs.Page.Success

/-!
Contract: which components the elements of a linked tree give.

Owns:
- what a component carries of its element;
- if every property among the attributes has a typed value, every element gives a component
  of the next number in document order, which stands among the others as its element does.

Does not own: which trees are linked.
-/

namespace LivePage

open PageTree

/-! ## What a component carries -/

/-- A component has what its element says, and no other settings. -/
structure Component.Carries (definition : Definition) (element : Element) (component : Component) :
    Prop where
  tag : component.tag = definition.tag
  widgetClass : component.widgetClass = definition.widgetClass
  arguments : component.arguments = element.arguments
  property : ∀ name raw, element.attributes.get? name = some raw →
    Setting.ofName name = .property name →
      ∃ value, definition.typed? name raw = some value ∧
        component.properties.get? name = some value
  noProperty : ∀ name,
    element.attributes.get? name = none ∨ Setting.ofName name ≠ .property name →
      component.properties.get? name = none
  event : ∀ eventType,
    component.events.get? eventType = element.attributes.get? ("on:" ++ eventType)
  domAttribute : ∀ name,
    component.domAttributes.get? name = element.attributes.get? ("attr:" ++ name)
  controller : ∀ name,
    component.controllers.get? name = element.attributes.get? ("controller:" ++ name)

namespace Component.Carries

variable {definition : Definition} {element : Element} {component : Component}

/-- Where a component stands does not matter. -/
theorem placed (carries : component.Carries definition element) (parent : Option String)
    (children : List String) :
    Carries definition element { component with parent := parent, children := children } :=
  ⟨carries.tag, carries.widgetClass, carries.arguments, carries.property, carries.noProperty,
    carries.event, carries.domAttribute, carries.controller⟩

theorem of_componentOf {id : String}
    (made : Building.componentOf definition element id = .ok component) :
    component.Carries definition element := by
  have takes := Building.takes_of_componentOf made
  refine ⟨takes.sameFrame.tag, takes.sameFrame.widgetClass, takes.sameFrame.arguments,
    takes.property, takes.otherProperty, ?_, ?_, ?_⟩
  · exact fun eventType => (takes.event eventType).trans Option.or_none
  · exact fun name => (takes.domAttribute name).trans Option.or_none
  · exact fun name => (takes.controller name).trans Option.or_none

end Component.Carries

/-! ## What grows -/

namespace PageTree

variable (tree : PageTree) (name : Nat → String)

/-- The ids of some elements and all below them are the next ones of a page, in document
order. -/
def Named (page : PageState) (numbers : List Nat) : Prop :=
  (numbers.flatMap tree.subtree).map name =
    (List.range' page.nextComponent (numbers.flatMap tree.subtree).length).map
      (numberedId page.id)

/-- An element has given a component that stands at a place. -/
def Planted (page : PageState) (number : Nat) (place : String) : Prop :=
  ∃ definition component, (tree.element number).definition = some definition ∧
    page.component? (name number) = some component ∧
    component.Carries definition (tree.element number) ∧
    component.parent = some place ∧
    component.children = (tree.element number).children.map name

/-- Some elements, with all below them, have given components at a place. Nothing else has
changed, but for settings of the page's own component if that is the place. -/
structure Sprouts (place : String) (numbers : List Nat) (before after : PageState) : Prop where
  intact : after.Intact
  id_eq : after.id = before.id
  counter_eq : after.nextComponent =
    before.nextComponent + (numbers.flatMap tree.subtree).length
  top : ∀ number ∈ numbers, tree.Planted name after number place
  below : ∀ number ∈ numbers.flatMap tree.subtree, ∀ child ∈ (tree.element number).children,
    tree.Planted name after child (name number)
  around : ∀ above, before.component? place = some above →
    ∃ now, after.component? place = some now ∧
      now.children = above.children ++ numbers.map name ∧
      (place ≠ before.id → { now with children := above.children } = above)
  kept : ∀ id, id ≠ place → id ∉ (numbers.flatMap tree.subtree).map name →
    after.component? id = before.component? id

variable {tree name}

theorem Planted.of_same {before after : PageState} {number : Nat} {place : String}
    (planted : tree.Planted name before number place)
    (same : after.component? (name number) = before.component? (name number)) :
    tree.Planted name after number place := by
  obtain ⟨definition, component, isDefined, found, rest⟩ := planted
  exact ⟨definition, component, isDefined, same.trans found, rest⟩

namespace Named

variable {page : PageState} {numbers first second : List Nat}

theorem exists_number (named : tree.Named name page numbers) {number : Nat}
    (member : number ∈ numbers.flatMap tree.subtree) :
    ∃ drawn, page.nextComponent ≤ drawn ∧
      drawn < page.nextComponent + (numbers.flatMap tree.subtree).length ∧
      name number = numberedId page.id drawn := by
  have listed : name number ∈ (numbers.flatMap tree.subtree).map name :=
    List.mem_map_of_mem member
  have asNumbers : (numbers.flatMap tree.subtree).map name = _ := named
  rw [asNumbers] at listed
  obtain ⟨drawn, inRange, isName⟩ := List.mem_map.mp listed
  have bounds := List.mem_range'_1.mp inRange
  exact ⟨drawn, bounds.1, bounds.2, isName.symm⟩

/-- Ids that have been given are none of the next ones. -/
theorem not_mem (named : tree.Named name page numbers) (intact : page.Intact) {id : String}
    {component : Component} (found : page.component? id = some component) :
    id ∉ (numbers.flatMap tree.subtree).map name := by
  intro member
  obtain ⟨number, isBelow, rfl⟩ := List.mem_map.mp member
  obtain ⟨drawn, notDrawn, -, isName⟩ := named.exists_number isBelow
  rw [isName, intact.fresh notDrawn] at found
  cases found

theorem append (named : tree.Named name page (first ++ second)) :
    tree.Named name page first ∧
      ∀ next : PageState, next.id = page.id →
        next.nextComponent = page.nextComponent + (first.flatMap tree.subtree).length →
        tree.Named name next second := by
  unfold Named at named ⊢
  rw [List.flatMap_append, List.map_append, List.length_append, ← List.range'_append_1,
    List.map_append] at named
  obtain ⟨ofFirst, ofSecond⟩ := List.append_inj named (by simp)
  refine ⟨ofFirst, ?_⟩
  intro next id_eq counter_eq
  rw [id_eq, counter_eq]
  exact ofSecond

/-- The first id is that of the uppermost element. -/
theorem single (linked : tree.Linked) {number : Nat} (named : tree.Named name page [number]) :
    name number = page.nextId ∧
      ∀ next : PageState, next.id = page.id → next.nextComponent = page.nextComponent + 1 →
        tree.Named name next (tree.element number).children := by
  unfold Named at named ⊢
  rw [List.flatMap_singleton, linked.subtree_eq number, List.map_cons, List.length_cons,
    List.range'_succ, List.map_cons] at named
  obtain ⟨ofTop, ofContent⟩ := List.cons_eq_cons.mp named
  refine ⟨ofTop, ?_⟩
  intro next id_eq counter_eq
  rw [id_eq, counter_eq]
  exact ofContent

end Named

namespace Sprouts

variable {place : String} {before middle after : PageState} {first second : List Nat}

theorem found (sprouts : tree.Sprouts name place first before after) {above : Component}
    (foundPlace : before.component? place = some above) :
    ∃ now, after.component? place = some now := by
  obtain ⟨now, foundNow, -⟩ := sprouts.around above foundPlace
  exact ⟨now, foundNow⟩

/-- Elements one after another. -/
theorem append (linked : tree.Linked) (inside : ∀ number ∈ first, number < tree.size)
    (intact : before.Intact) {above : Component} (foundPlace : before.component? place = some above)
    (named : tree.Named name before (first ++ second))
    (sproutsFirst : tree.Sprouts name place first before middle)
    (sproutsSecond : tree.Sprouts name place second middle after) :
    tree.Sprouts name place (first ++ second) before after := by
  obtain ⟨namedFirst, namedRest⟩ := named.append
  have namedSecond := namedRest middle sproutsFirst.id_eq sproutsFirst.counter_eq
  -- What the first elements gave is not touched by the second ones.
  have untouched : ∀ number ∈ first.flatMap tree.subtree,
      after.component? (name number) = middle.component? (name number) := by
    intro number member
    obtain ⟨drawn, notDrawn, bound, isName⟩ := namedFirst.exists_number member
    apply sproutsSecond.kept
    · intro isPlace
      rw [← isPlace, isName, intact.fresh notDrawn] at foundPlace
      cases foundPlace
    · intro listed
      obtain ⟨other, isBelow, sameName⟩ := List.mem_map.mp listed
      obtain ⟨later, notDrawnLater, -, isLater⟩ := namedSecond.exists_number isBelow
      rw [sproutsFirst.counter_eq] at notDrawnLater
      rw [isLater, isName, sproutsFirst.id_eq] at sameName
      have same := numberedId_inj.mp sameName
      omega
  refine ⟨sproutsSecond.intact, sproutsSecond.id_eq.trans sproutsFirst.id_eq, ?_, ?_, ?_, ?_, ?_⟩
  · rw [sproutsSecond.counter_eq, sproutsFirst.counter_eq, List.flatMap_append, List.length_append]
    omega
  · intro number member
    rcases List.mem_append.mp member with isFirst | isSecond
    · have isBelow := List.mem_flatMap.mpr ⟨number, isFirst, linked.mem_subtree_self number⟩
      exact (sproutsFirst.top number isFirst).of_same (untouched number isBelow)
    · exact sproutsSecond.top number isSecond
  · intro number member child isChild
    rw [List.flatMap_append] at member
    rcases List.mem_append.mp member with isFirst | isSecond
    · obtain ⟨top, isTop, isBelow⟩ := List.mem_flatMap.mp isFirst
      have childBelow := linked.mem_subtree_of_mem_children (inside top isTop) isBelow isChild
      exact (sproutsFirst.below number isFirst child isChild).of_same
        (untouched child (List.mem_flatMap.mpr ⟨top, isTop, childBelow⟩))
    · exact sproutsSecond.below number isSecond child isChild
  · intro original foundOriginal
    obtain ⟨now, foundNow, children_eq, same⟩ := sproutsFirst.around original foundOriginal
    obtain ⟨last, foundLast, lastChildren_eq, lastSame⟩ := sproutsSecond.around now foundNow
    refine ⟨last, foundLast, ?_, ?_⟩
    · rw [lastChildren_eq, children_eq, List.map_append, List.append_assoc]
    · intro notPage
      rw [← same notPage, ← lastSame (sproutsFirst.id_eq ▸ notPage)]
  · intro id notPlace notListed
    rw [List.flatMap_append, List.map_append] at notListed
    rw [sproutsSecond.kept id notPlace (fun isSecond => notListed (List.mem_append_right _ isSecond)),
      sproutsFirst.kept id notPlace (fun isFirst => notListed (List.mem_append_left _ isFirst))]

/-- Nothing but the page's own settings. -/
theorem settings {page : PageState} (intact : page.Intact) {own changed : Component}
    (foundOwn : page.component? page.id = some own) (frame : own.SameFrame changed) :
    tree.Sprouts name page.id [] page (page.replace page.id changed) := by
  refine ⟨intact.replace foundOwn frame.id frame.parent frame.children, rfl, rfl, ?_, ?_, ?_, ?_⟩
  · simp
  · simp
  · intro above foundAbove
    rw [foundOwn] at foundAbove
    cases foundAbove
    refine ⟨changed, ?_, ?_, fun notPage => absurd rfl notPage⟩
    · exact (PageState.component?_replace _ _ _ _).trans (if_pos rfl)
    · rw [frame.children, List.map_nil, List.append_nil]
  · intro id notPage _
    exact (PageState.component?_replace _ _ _ _).trans (if_neg notPage)

theorem nothing {page : PageState} (intact : page.Intact) :
    tree.Sprouts name place [] page page := by
  refine ⟨intact, rfl, rfl, ?_, ?_, ?_, fun _ _ _ => rfl⟩
  · simp
  · simp
  · intro above foundAbove
    exact ⟨above, foundAbove, (List.append_nil _).symm, fun _ => rfl⟩

end Sprouts

end PageTree

namespace Building

variable {tree : PageTree} {name : Nat → String} {place : String}

theorem sprouts_forEach (linked : tree.Linked) {step : Nat → BuildStep String}
    {numbers : List Nat} (inside : ∀ number ∈ numbers, number < tree.size)
    (each : ∀ number ∈ numbers, ∀ building above, building.page.Intact →
      building.page.component? place = some above → tree.Named name building.page [number] →
      ∃ next, step number building = (next, .ok (name number)) ∧
        tree.Sprouts name place [number] building.page next.page)
    {building : Building} {above : Component} (intact : building.page.Intact)
    (foundPlace : building.page.component? place = some above)
    (named : tree.Named name building.page numbers) :
    ∃ next, forEach step numbers building = (next, .ok (numbers.map name)) ∧
      tree.Sprouts name place numbers building.page next.page := by
  induction numbers generalizing building above with
  | nil => exact ⟨building, rfl, .nothing intact⟩
  | cons number rest inductionHypothesis =>
      have asTwo : tree.Named name building.page ([number] ++ rest) := named
      obtain ⟨namedFirst, namedRest⟩ := asTwo.append
      obtain ⟨middle, made, first⟩ :=
        each number List.mem_cons_self building above intact foundPlace namedFirst
      obtain ⟨now, foundNow⟩ := first.found foundPlace
      obtain ⟨last, others, second⟩ := inductionHypothesis
        (fun other member => inside other (List.mem_cons_of_mem _ member))
        (fun other member => each other (List.mem_cons_of_mem _ member))
        first.intact foundNow (namedRest middle.page first.id_eq first.counter_eq)
      have bothMade := forEach_cons_eq_ok_iff.mpr ⟨middle, _, _, made, others, rfl⟩
      refine ⟨last, bothMade, Sprouts.append linked ?_ intact foundPlace asTwo first second⟩
      intro other member
      rw [List.mem_singleton.mp member]
      exact inside number List.mem_cons_self

/-- A new component that has got its children, and is otherwise what was attached, stands for
its element. -/
theorem planted_of_sprouts {number : Nat} {definition : Definition} {middle after : PageState}
    {component : Component} (isDefined : (tree.element number).definition = some definition)
    (carries : component.Carries definition (tree.element number))
    (noChildren : component.children = [])
    (foundNew : middle.component? (name number) = some (component.under place))
    (newIsNotPage : name number ≠ middle.id)
    (content : tree.Sprouts name (name number) (tree.element number).children middle after) :
    tree.Planted name after number place := by
  obtain ⟨now, foundNow, children_eq, same⟩ := content.around _ foundNew
  have besides := same newIsNotPage
  refine ⟨definition, now, isDefined, foundNow, ?_, congrArg Component.parent besides, ?_⟩
  · have now_eq : now = { component with parent := some place, children := now.children } := by
      cases now
      cases component
      cases besides
      rfl
    rw [now_eq]
    exact carries.placed (some place) now.children
  · rw [children_eq]
    show component.children ++ _ = _
    rw [noChildren, List.nil_append]

/-- What has grown below a new component makes a whole with it. -/
theorem sprouts_attached (linked : tree.Linked) {number : Nat} {definition : Definition}
    {page after : PageState} {above component : Component} (intact : page.Intact)
    (isDefined : (tree.element number).definition = some definition)
    (foundPlace : page.component? place = some above) (named : tree.Named name page [number])
    (carries : component.Carries definition (tree.element number))
    (isNew : component.id = page.nextId) (noChildren : component.children = [])
    (content : tree.Sprouts name (name number) (tree.element number).children
      (page.drawId.attached place above component) after) :
    tree.Sprouts name place [number] page after := by
  obtain ⟨isName, -⟩ := named.single linked
  have isId : component.id = name number := isNew.trans isName.symm
  have below_eq : [number].flatMap tree.subtree =
      number :: (tree.element number).children.flatMap tree.subtree := by
    rw [List.flatMap_singleton, linked.subtree_eq number]
  have placeNotListed := named.not_mem intact foundPlace
  rw [below_eq, List.map_cons] at placeNotListed
  obtain ⟨placeNotNew, placeNotBelow⟩ := not_or.mp (mt List.mem_cons.mpr placeNotListed)
  have attached_eq : ∀ id, (page.drawId.attached place above component).component? id =
      if id = name number then some (component.under place)
      else if id = place then some (above.addChild (name number)) else page.component? id := by
    intro id
    rw [PageState.component?_attached, isId]
    rfl
  have foundNew : (page.drawId.attached place above component).component? (name number) =
      some (component.under place) := (attached_eq _).trans (if_pos rfl)
  have newIsNotPage : name number ≠ (page.drawId.attached place above component).id := by
    rw [isName, PageState.nextId_eq]
    exact numberedId_ne_page _ _
  have planted : tree.Planted name after number place :=
    planted_of_sprouts isDefined carries noChildren foundNew newIsNotPage content
  refine ⟨content.intact, content.id_eq, ?_, ?_, ?_, ?_, ?_⟩
  · have counter_eq := content.counter_eq
    rw [below_eq, List.length_cons]
    show after.nextComponent = page.nextComponent + _
    rw [counter_eq]
    show page.nextComponent + 1 + _ = _
    omega
  · intro other member
    rw [List.mem_singleton.mp member]
    exact planted
  · intro other member child isChild
    rw [below_eq] at member
    rcases List.mem_cons.mp member with isTop | isBelow
    · rw [isTop] at isChild ⊢
      exact content.top child isChild
    · exact content.below other isBelow child isChild
  · intro original foundOriginal
    rw [foundPlace] at foundOriginal
    cases foundOriginal
    refine ⟨above.addChild (name number), ?_, rfl, fun _ => rfl⟩
    rw [content.kept place placeNotNew placeNotBelow, attached_eq, if_neg placeNotNew, if_pos rfl]
  · intro id notPlace notListed
    rw [below_eq, List.map_cons] at notListed
    obtain ⟨notNew, notBelow⟩ := not_or.mp (mt List.mem_cons.mpr notListed)
    rw [content.kept id notNew notBelow, attached_eq, if_neg notNew, if_neg notPlace]

/-- An element whose attributes have typed values, as have those below it, gives a component
with all below it. -/
theorem sprouts_build (linked : tree.Linked) {fuel number : Nat} (notRoot : root < number)
    (inside : number < tree.size) (enough : tree.size - number ≤ fuel)
    (coerce : ∀ other ∈ tree.subtree number, (tree.element other).Coerces) {building : Building}
    {above : Component} (intact : building.page.Intact)
    (foundPlace : building.page.component? place = some above)
    (named : tree.Named name building.page [number]) :
    ∃ next, build tree fuel place number building = (next, .ok (name number)) ∧
      tree.Sprouts name place [number] building.page next.page := by
  induction fuel generalizing number place building above with
  | zero => omega
  | succ fuel inductionHypothesis =>
      obtain ⟨definition, isDefined⟩ := linked.defined notRoot inside
      obtain ⟨isName, namedContent⟩ := named.single linked
      have ownCoerces : definition.Coerces (tree.element number).attributes :=
        coerce number (linked.mem_subtree_self number) definition isDefined
      obtain ⟨component, made, takes⟩ := Component.exists_takes_of_coerces ownCoerces
        (blank definition (tree.element number) building.page.nextId)
      have single : componentOf definition (tree.element number) building.page.nextId =
          .ok component := made
      let next : Building := ⟨building.page.drawId.attached place above component,
        building.emitted ++ building.page.drawId.emit (.onClient PageState.createFunction
          [.str place, (component.under place).payload])⟩
      have nextIntact : next.page.Intact :=
        intact.attached foundPlace takes.sameFrame.id takes.sameFrame.children
      have foundNew : next.page.component? (name number) = some (component.under place) := by
        rw [isName]
        exact (PageState.component?_attached _ _ _ _ _).trans (if_pos takes.sameFrame.id.symm)
      have childInside : ∀ child ∈ (tree.element number).children, child < tree.size :=
        fun child isChild => (linked.listed isChild).2.1
      obtain ⟨last, content, sprouts⟩ := sprouts_forEach linked childInside
        (fun child isChild reached top reachedIntact foundTop namedChild => by
          have later := (linked.listed isChild).1
          exact inductionHypothesis (Nat.zero_lt_of_lt later) (childInside child isChild) (by omega)
            (fun other member => coerce other (by
              rw [linked.subtree_eq number]
              exact List.mem_cons_of_mem _ (List.mem_flatMap.mpr ⟨child, isChild, member⟩)))
            reachedIntact foundTop namedChild)
        nextIntact foundNew (namedContent next.page rfl rfl)
      refine ⟨last, ?_, sprouts_attached linked intact isDefined foundPlace named
        (.of_componentOf single) takes.sameFrame.id takes.sameFrame.children sprouts⟩
      rw [isName] at content ⊢
      exact build_eq_ok_iff.mpr ⟨intact.alive, rfl, definition, component, above, isDefined,
        single, foundPlace, _, content⟩

end Building

/-! ## Top-level elements -/

namespace PageTree

/-- The elements that a top-level element stands for: its children, if it sets up the page. -/
def topsOf (tree : PageTree) (intoPage : Bool) (number : Nat) : List Nat :=
  if intoPage = true ∧ (tree.element number).tag = Definition.pageTag then
    (tree.element number).children
  else [number]

/-- The elements that give top-level components. -/
def tops (tree : PageTree) (intoPage : Bool) : List Nat :=
  (tree.element root).children.flatMap (tree.topsOf intoPage)

end PageTree

namespace Building

variable {tree : PageTree} {name : Nat → String} {parent : String}

/-- An attribute with a typed value can be applied to the page's own component. -/
theorem exists_applyToPage {definition : Definition} {key raw : String} {building : Building}
    (intact : building.page.Intact)
    (typed : Setting.ofName key = .property key → (definition.typed? key raw).isSome) :
    ∃ next, applyToPage definition key raw building = (next, .ok ()) := by
  obtain ⟨own, foundOwn, -⟩ := intact.root
  obtain ⟨changed, applied⟩ := (Component.exists_apply_iff own).mpr typed
  unfold applyToPage
  dsimp only
  split
  · next propertyName setting =>
      cases Setting.eq_of_ofName_eq_property setting
      obtain ⟨value, isTyped⟩ := Option.isSome_iff_exists.mp (typed setting)
      have set : building.page.setProperty building.page.id key value =
          .ok (building.page.replace building.page.id (own.setProperty key value),
            building.page.emit ⟨PageState.updateFunction, some building.page.id,
              [.str key, value.toJson]⟩) :=
        PageState.setProperty_eq_ok_iff.mpr ⟨intact.alive, own, foundOwn, rfl, rfl⟩
      rw [Definition.coerce_eq_ok_iff.mpr isTyped]
      dsimp only
      rw [set]
      exact ⟨_, rfl⟩
  · rw [foundOwn]
    dsimp only
    rw [applied]
    exact ⟨_, rfl⟩

theorem sprouts_applyAllToPage (linked : tree.Linked) (name : Nat → String)
    {definition : Definition}
    {entries : List (String × String)}
    (typed : ∀ entry ∈ entries, Setting.ofName entry.1 = .property entry.1 →
      (definition.typed? entry.1 entry.2).isSome)
    {building : Building} (intact : building.page.Intact) :
    ∃ next, applyAllToPage definition entries building = (next, .ok ()) ∧
      tree.Sprouts name building.page.id [] building.page next.page := by
  induction entries generalizing building with
  | nil => exact ⟨building, rfl, .nothing intact⟩
  | cons entry rest inductionHypothesis =>
      obtain ⟨key, raw⟩ := entry
      obtain ⟨middle, outcome⟩ := exists_applyToPage intact (typed _ List.mem_cons_self)
      obtain ⟨own, changed, foundOwn, applied, middle_eq⟩ := applied_of_applyToPage outcome
      have first : tree.Sprouts name building.page.id [] building.page middle.page := by
        rw [middle_eq]
        exact .settings intact foundOwn (Component.takesOne_of_apply applied).sameFrame
      obtain ⟨last, others, second⟩ := inductionHypothesis
        (fun entry member => typed entry (List.mem_cons_of_mem _ member)) first.intact
      rw [first.id_eq] at second
      have noTops : ∀ number ∈ ([] : List Nat), number < tree.size := by simp
      exact ⟨last, applyAllToPage_cons_eq_ok_iff.mpr ⟨middle, outcome, others⟩,
        Sprouts.append linked noTops intact foundOwn rfl first second⟩

/-- Elements whose attributes have typed values give components one after another. -/
theorem sprouts_buildEach (linked : tree.Linked) {numbers : List Nat}
    (areElements : ∀ number ∈ numbers, root < number ∧ number < tree.size)
    (coerce : ∀ number ∈ numbers, ∀ other ∈ tree.subtree number, (tree.element other).Coerces)
    {building : Building} {above : Component} (intact : building.page.Intact)
    (foundParent : building.page.component? parent = some above)
    (named : tree.Named name building.page numbers) :
    ∃ next, forEach (build tree tree.size parent) numbers building =
        (next, .ok (numbers.map name)) ∧
      tree.Sprouts name parent numbers building.page next.page := by
  refine sprouts_forEach linked (fun number member => (areElements number member).2) ?_ intact
    foundParent named
  intro number member start component startIntact foundStart namedOne
  obtain ⟨notRoot, inside⟩ := areElements number member
  exact sprouts_build linked notRoot inside (Nat.sub_le _ _) (coerce number member) startIntact
    foundStart namedOne

/-- A top-level element gives the components of the elements that it stands for. -/
theorem sprouts_buildTopLevel (linked : tree.Linked) {intoPage : Bool} {number : Nat}
    (isTopLevel : number ∈ (tree.element root).children)
    (coerce : ∀ other ∈ tree.subtree number, (tree.element other).Coerces)
    {building : Building} {above : Component} (intact : building.page.Intact)
    (isInto : intoPage = decide (parent = building.page.id))
    (foundParent : building.page.component? parent = some above)
    (named : tree.Named name building.page (tree.topsOf intoPage number)) :
    ∃ next, buildTopLevel tree parent number building =
        (next, .ok ((tree.topsOf intoPage number).map name)) ∧
      tree.Sprouts name parent (tree.topsOf intoPage number) building.page next.page := by
  obtain ⟨notRoot, inside, -⟩ := linked.listed isTopLevel
  have conditions : (intoPage = true ∧ (tree.element number).tag = Definition.pageTag) ↔
      (parent = building.page.id ∧ (tree.element number).tag = Definition.pageTag) := by
    rw [isInto, decide_eq_true_iff]
  unfold topsOf at named ⊢
  unfold buildTopLevel
  dsimp only
  by_cases setsUp : parent = building.page.id ∧ (tree.element number).tag = Definition.pageTag
  · rw [if_pos (conditions.mpr setsUp)] at named ⊢
    rw [if_pos setsUp]
    obtain ⟨isPage, -⟩ := setsUp
    obtain ⟨definition, isDefined⟩ := linked.defined notRoot inside
    have ownCoerces := coerce number (linked.mem_subtree_self number) definition isDefined
    have typed : ∀ entry ∈ (tree.element number).attributes.toList,
        Setting.ofName entry.1 = .property entry.1 →
          (definition.typed? entry.1 entry.2).isSome :=
      fun entry member => ownCoerces entry.1 entry.2 (Dict.mem_toList.mp member)
    obtain ⟨middle, applied, first⟩ := sprouts_applyAllToPage linked name typed intact
    rw [← isPage] at first
    obtain ⟨now, foundNow⟩ := first.found foundParent
    have areElements : ∀ child ∈ (tree.element number).children, root < child ∧ child < tree.size := by
      intro child isChild
      obtain ⟨later, childInside, -⟩ := linked.listed isChild
      exact ⟨Nat.zero_lt_of_lt later, childInside⟩
    have contentCoerces : ∀ child ∈ (tree.element number).children,
        ∀ other ∈ tree.subtree child, (tree.element other).Coerces := by
      intro child isChild other isBelow
      apply coerce other
      rw [linked.subtree_eq number]
      exact List.mem_cons_of_mem _ (List.mem_flatMap.mpr ⟨child, isChild, isBelow⟩)
    have namedAfter : tree.Named name middle.page (tree.element number).children := by
      have asTwo : tree.Named name building.page ([] ++ (tree.element number).children) := named
      exact asTwo.append.2 middle.page first.id_eq first.counter_eq
    obtain ⟨last, made, second⟩ :=
      sprouts_buildEach linked areElements contentCoerces first.intact foundNow namedAfter
    refine ⟨last, ?_, ?_⟩
    · rw [isDefined]
      dsimp only
      rw [applied]
      exact made
    · have noTops : ∀ number ∈ ([] : List Nat), number < tree.size := by simp
      exact Sprouts.append linked noTops intact foundParent named first second
  · rw [if_neg (fun both => setsUp (conditions.mp both))] at named ⊢
    rw [if_neg setsUp]
    refine sprouts_buildEach linked ?_ ?_ intact foundParent named
    · intro other member
      rw [List.mem_singleton.mp member]
      exact ⟨notRoot, inside⟩
    · intro other member
      rw [List.mem_singleton.mp member]
      exact coerce

theorem sprouts_buildAll (linked : tree.Linked) {intoPage : Bool} {numbers : List Nat}
    (areTopLevel : ∀ number ∈ numbers, number ∈ (tree.element root).children)
    (coerce : ∀ number ∈ numbers, ∀ other ∈ tree.subtree number, (tree.element other).Coerces)
    {building : Building} {above : Component} (intact : building.page.Intact)
    (isInto : intoPage = decide (parent = building.page.id))
    (foundParent : building.page.component? parent = some above)
    (named : tree.Named name building.page (numbers.flatMap (tree.topsOf intoPage))) :
    ∃ next, buildAll tree parent numbers building =
        (next, .ok ((numbers.flatMap (tree.topsOf intoPage)).map name)) ∧
      tree.Sprouts name parent (numbers.flatMap (tree.topsOf intoPage)) building.page
        next.page := by
  induction numbers generalizing building above with
  | nil => exact ⟨building, rfl, .nothing intact⟩
  | cons number rest inductionHypothesis =>
      rw [List.flatMap_cons] at named ⊢
      obtain ⟨namedFirst, namedRest⟩ := named.append
      have isTopLevel := areTopLevel number List.mem_cons_self
      obtain ⟨middle, made, first⟩ := sprouts_buildTopLevel linked isTopLevel
        (coerce number List.mem_cons_self) intact isInto foundParent namedFirst
      obtain ⟨now, foundNow⟩ := first.found foundParent
      obtain ⟨last, others, second⟩ := inductionHypothesis
        (fun other member => areTopLevel other (List.mem_cons_of_mem _ member))
        (fun other member => coerce other (List.mem_cons_of_mem _ member))
        first.intact (first.id_eq ▸ isInto) foundNow
        (namedRest middle.page first.id_eq first.counter_eq)
      have bothMade := buildAll_cons_eq_ok_iff.mpr ⟨middle, _, _, made, others, List.map_append⟩
      refine ⟨last, bothMade, Sprouts.append linked ?_ intact foundParent named first second⟩
      intro other member
      unfold topsOf at member
      split at member
      · exact (linked.listed member).2.1
      · rw [List.mem_singleton.mp member]
        exact (linked.listed isTopLevel).2.1

end Building

end LivePage
