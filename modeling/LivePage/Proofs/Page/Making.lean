import LivePage.Proofs.Page.ComponentTree
import LivePage.Proofs.Page.Settings

/-!
Contract: the making of components as a sequence of small changes.

Owns:
- the component of an element before it has a place;
- the edits that making consists of: numbers are drawn, new components attached, and the
  page's own component set up;
- whatever comes of the making, its result is reached by edits.

Does not own: which components a tree gives.
-/

namespace LivePage

/-- A top-level `page` element of the tree has this attribute. -/
def PageTree.SetsUp (tree : PageTree) (definition : Definition) (name raw : String) : Prop :=
  ∃ number ∈ (tree.element PageTree.root).children,
    (tree.element number).tag = Definition.pageTag ∧
      (tree.element number).definition = some definition ∧
      (tree.element number).attributes.get? name = some raw

/-- What the client is told when an attribute has changed the page's own component: the
property, if it is one. -/
def PageState.told (page : PageState) (name : String) (changed : Component) : List Emission :=
  match Setting.ofName name, changed.properties.get? name with
  | .property _, some value =>
      page.emit ⟨PageState.updateFunction, some page.id, [.str name, value.toJson]⟩
  | _, _ => []

theorem PageState.told_of_property {page : PageState} {name : String} {changed : Component}
    {value : Property} (isProperty : Setting.ofName name = .property name)
    (isSet : changed.properties.get? name = some value) :
    page.told name changed =
      page.emit ⟨PageState.updateFunction, some page.id, [.str name, value.toJson]⟩ := by
  simp only [told, isProperty, isSet]

theorem PageState.told_of_not_property {page : PageState} {name : String} {changed : Component}
    (notProperty : Setting.ofName name ≠ .property name) : page.told name changed = [] := by
  unfold told
  split
  · next setting _ =>
      rw [Setting.eq_of_ofName_eq_property setting] at setting
      exact absurd setting notProperty
  · rfl

@[simp] theorem PageState.emit_drawId (page : PageState) (invocation : Invocation) :
    page.drawId.emit invocation = page.emit invocation := rfl

namespace Building

/-! ## Components without a place -/

/-- What an element gives its component before any attribute. -/
def blank (definition : Definition) (element : Element) (id : String) : Component :=
  { Component.bare id definition.tag definition.widgetClass with arguments := element.arguments }

theorem takes_of_componentOf {definition : Definition} {element : Element} {id : String}
    {component : Component} (made : componentOf definition element id = .ok component) :
    Component.Takes definition element.attributes (blank definition element id) component :=
  Component.takes_of_applyAll element.attributes.ascending made

/-! ## Edits -/

/-- New components hang under the given parent or under new ones. -/
def Open (origin : PageState) (parent place : String) : Prop :=
  place = parent ∨
    ∃ number, origin.nextComponent ≤ number ∧ place = numberedId origin.id number

/-- One change on the way from a page to the page with the components of a tree. -/
inductive Edit (tree : PageTree) (origin : PageState) (parent : String) :
    Building → Building → Prop
  /-- A number is drawn for a component that cannot be made. -/
  | draw (building : Building) :
      Edit tree origin parent building { building with page := building.page.drawId }
  /-- A number is drawn, and the new component attached. -/
  | attach {building : Building} {place : String} {above component : Component}
      (alive : building.page.isDestroyed = false) (isOpen : Open origin parent place)
      (foundAbove : building.page.component? place = some above)
      (isNew : component.id = building.page.nextId) (noChildren : component.children = []) :
      Edit tree origin parent building
        ⟨building.page.drawId.attached place above component,
          building.emitted ++ building.page.emit (.onClient PageState.createFunction
            [.str place, (component.under place).payload])⟩
  /-- An attribute of a top-level `page` element sets up the page. -/
  | setUp {building : Building} {definition : Definition} {name raw : String}
      {own changed : Component} (isParent : parent = building.page.id)
      (source : tree.SetsUp definition name raw)
      (foundOwn : building.page.component? building.page.id = some own)
      (applied : own.apply definition name raw = .ok changed) :
      Edit tree origin parent building
        ⟨building.page.replace building.page.id changed,
          building.emitted ++ building.page.told name changed⟩

/-- Any number of edits, one after another. -/
abbrev Edits (tree : PageTree) (origin : PageState) (parent : String) :
    Building → Building → Prop :=
  Relation.ReflTransGen (Edit tree origin parent)

section Reached

variable {tree : PageTree} {origin : PageState} {parent : String}

/-- The making has begun at the page of the origin. -/
structure Since (origin : PageState) (building : Building) : Prop where
  id_eq : building.page.id = origin.id
  counter_le : origin.nextComponent ≤ building.page.nextComponent

theorem Edit.id_eq {building next : Building} (edit : Edit tree origin parent building next) :
    next.page.id = building.page.id := by
  cases edit <;> rfl

theorem Edit.counter_le {building next : Building} (edit : Edit tree origin parent building next) :
    building.page.nextComponent ≤ next.page.nextComponent := by
  cases edit with
  | draw => exact Nat.le_succ _
  | attach => exact Nat.le_succ _
  | setUp => exact Nat.le_refl _

/-- Every edit keeps a page intact. -/
theorem Edit.intact {building next : Building} (edit : Edit tree origin parent building next)
    (intact : building.page.Intact) : next.page.Intact := by
  cases edit with
  | draw => exact intact.drawId
  | attach alive isOpen foundAbove isNew noChildren =>
      exact intact.attached foundAbove isNew noChildren
  | setUp isParent source foundOwn applied =>
      have frame := (Component.takesOne_of_apply applied).sameFrame
      exact intact.replace foundOwn frame.id frame.parent frame.children

theorem Since.edits {building next : Building} (since : Since origin building)
    (edits : Edits tree origin parent building next) : Since origin next := by
  induction edits with
  | refl => exact since
  | tail _ edit inductionHypothesis =>
      exact ⟨edit.id_eq.trans inductionHypothesis.id_eq,
        Nat.le_trans inductionHypothesis.counter_le edit.counter_le⟩

/-- The place that a number drawn now gives is open. -/
theorem Since.open_nextId {building : Building} (since : Since origin building) :
    Open origin parent building.page.nextId := by
  refine Or.inr ⟨building.page.nextComponent, since.counter_le, ?_⟩
  rw [PageState.nextId_eq, since.id_eq]

/-! ## Making is editing -/

theorem edits_forEach {step : Nat → BuildStep String}
    (each : ∀ number building, Since origin building →
      Edits tree origin parent building (step number building).1)
    (numbers : List Nat) {building : Building} (since : Since origin building) :
    Edits tree origin parent building (forEach step numbers building).1 := by
  induction numbers generalizing building with
  | nil => exact .refl
  | cons number rest inductionHypothesis =>
      have first := each number building since
      unfold forEach
      cases outcome : step number building with
      | mk next result =>
          rw [outcome] at first
          cases result with
          | error error => exact first
          | ok id =>
              have others := first.trans (inductionHypothesis (since.edits first))
              dsimp only
              cases made : forEach step rest next with
              | mk last result =>
                  rw [made] at others
                  cases result <;> exact others

theorem edits_build (fuel : Nat) {place : String} (isOpen : Open origin parent place)
    (number : Nat) {building : Building} (since : Since origin building) :
    Edits tree origin parent building (build tree fuel place number building).1 := by
  induction fuel generalizing place number building with
  | zero => exact .refl
  | succ fuel inductionHypothesis =>
      unfold build
      dsimp only
      cases (tree.element number).definition with
      | none => exact .refl
      | some definition =>
          dsimp only
          cases made : componentOf definition (tree.element number) building.page.nextId with
          | error error => exact .single (.draw building)
          | ok component =>
              have frame := (takes_of_componentOf made).sameFrame
              dsimp only
              cases attached : building.page.drawId.attach place component with
              | error error => exact .single (.draw building)
              | ok result =>
                  obtain ⟨page, emitted⟩ := result
                  obtain ⟨alive, above, foundAbove, rfl, rfl⟩ :=
                    PageState.attach_eq_ok_iff.mp attached
                  let next : Building := ⟨building.page.drawId.attached place above component,
                    building.emitted ++ building.page.emit (.onClient PageState.createFunction
                      [.str place, (component.under place).payload])⟩
                  have first : Edits tree origin parent building next :=
                    .single (.attach alive isOpen foundAbove frame.id frame.children)
                  have others := edits_forEach
                    (fun number _ later => inductionHypothesis since.open_nextId number later)
                    (tree.element number).children (since.edits first)
                  simp only [take, PageState.emit_drawId]
                  cases content : forEach (build tree fuel building.page.nextId)
                      (tree.element number).children next with
                  | mk last result =>
                      rw [content] at others
                      cases result <;> exact first.trans others

/-- An attribute that can be applied changes the page's own component, and nothing else. -/
theorem applied_of_applyToPage {definition : Definition} {name raw : String}
    {building next : Building} (outcome : applyToPage definition name raw building = (next, .ok ())) :
    ∃ own changed, building.page.component? building.page.id = some own ∧
      own.apply definition name raw = .ok changed ∧
      next = ⟨building.page.replace building.page.id changed,
        building.emitted ++ building.page.told name changed⟩ := by
  unfold applyToPage at outcome
  dsimp only at outcome
  split at outcome
  · next propertyName setting =>
      cases Setting.eq_of_ofName_eq_property setting
      cases coerced : definition.coerce name raw with
      | error error =>
          rw [coerced] at outcome
          cases outcome
      | ok value =>
          rw [coerced] at outcome
          dsimp only at outcome
          cases set : building.page.setProperty building.page.id name value with
          | error error =>
              rw [set] at outcome
              cases outcome
          | ok result =>
              rw [set] at outcome
              cases outcome
              obtain ⟨-, own, foundOwn, next_eq, emitted_eq⟩ :=
                PageState.setProperty_eq_ok_iff.mp set
              refine ⟨own, own.setProperty name value, foundOwn, ?_, ?_⟩
              · simp only [Component.apply, setting, coerced, Except.map]
              · have isSet : (own.setProperty name value).properties.get? name = some value := by
                  simp [Component.setProperty, Dict.get?_insert]
                rw [next_eq, emitted_eq, PageState.told_of_property setting isSet]
  · next notProperty =>
      cases foundOwn : building.page.component? building.page.id with
      | none =>
          rw [foundOwn] at outcome
          cases outcome
      | some own =>
          rw [foundOwn] at outcome
          dsimp only at outcome
          cases applied : own.apply definition name raw with
          | error error =>
              rw [applied] at outcome
              cases outcome
          | ok changed =>
              rw [applied] at outcome
              cases outcome
              refine ⟨own, changed, rfl, applied, ?_⟩
              rw [PageState.told_of_not_property (notProperty name), List.append_nil]
              rfl

/-- An attribute that cannot be applied changes nothing. -/
theorem eq_of_applyToPage_error {definition : Definition} {name raw : String}
    {building next : Building} {error : MaterializeError}
    (outcome : applyToPage definition name raw building = (next, .error error)) :
    next = building := by
  unfold applyToPage at outcome
  dsimp only [take] at outcome
  repeat' split at outcome
  all_goals
    cases outcome
    try rfl

theorem edits_applyAllToPage (isParent : parent = origin.id) {definition : Definition}
    {entries : List (String × String)}
    (sources : ∀ entry ∈ entries, tree.SetsUp definition entry.1 entry.2) {building : Building}
    (since : Since origin building) :
    Edits tree origin parent building (applyAllToPage definition entries building).1 := by
  induction entries generalizing building with
  | nil => exact .refl
  | cons entry rest inductionHypothesis =>
      obtain ⟨name, raw⟩ := entry
      unfold applyAllToPage
      cases outcome : applyToPage definition name raw building with
      | mk next result =>
          cases result with
          | error error =>
              rw [eq_of_applyToPage_error outcome]
          | ok nothing =>
              obtain ⟨own, changed, foundOwn, applied, rfl⟩ := applied_of_applyToPage outcome
              have isOwn := isParent.trans since.id_eq.symm
              have first : Edits tree origin parent building _ :=
                .single (.setUp isOwn (sources _ List.mem_cons_self) foundOwn applied)
              exact first.trans (inductionHypothesis
                (fun entry member => sources entry (List.mem_cons_of_mem _ member))
                (since.edits first))

theorem edits_buildTopLevel {number : Nat} (isTopLevel : number ∈ (tree.element PageTree.root).children)
    {building : Building} (since : Since origin building) :
    Edits tree origin parent building (buildTopLevel tree parent number building).1 := by
  have each : ∀ number building, Since origin building →
      Edits tree origin parent building (build tree tree.size parent number building).1 :=
    fun number _ later => edits_build tree.size (Or.inl rfl) number later
  unfold buildTopLevel
  dsimp only
  by_cases setsUp : parent = building.page.id ∧ (tree.element number).tag = Definition.pageTag
  · rw [if_pos setsUp]
    obtain ⟨isPage, isPageTag⟩ := setsUp
    cases isDefined : (tree.element number).definition with
    | none => exact edits_forEach each _ since
    | some definition =>
        have sources : ∀ entry ∈ (tree.element number).attributes.toList,
            tree.SetsUp definition entry.1 entry.2 := by
          intro entry member
          exact ⟨number, isTopLevel, isPageTag, isDefined, Dict.mem_toList.mp member⟩
        have first := edits_applyAllToPage (isPage.trans since.id_eq) sources since
        dsimp only
        cases outcome : applyAllToPage definition (tree.element number).attributes.toList building with
        | mk next result =>
            rw [outcome] at first
            cases result with
            | error error => exact first
            | ok nothing => exact first.trans (edits_forEach each _ (since.edits first))
  · rw [if_neg setsUp]
    exact edits_forEach each _ since

/-- Making the components of top-level elements is a sequence of edits. -/
theorem edits_buildAll {numbers : List Nat}
    (areTopLevel : ∀ number ∈ numbers, number ∈ (tree.element PageTree.root).children)
    {building : Building} (since : Since origin building) :
    Edits tree origin parent building (buildAll tree parent numbers building).1 := by
  induction numbers generalizing building with
  | nil => exact .refl
  | cons number rest inductionHypothesis =>
      have first : Edits tree origin parent building _ :=
        edits_buildTopLevel (areTopLevel number List.mem_cons_self) since
      unfold buildAll
      cases outcome : buildTopLevel tree parent number building with
      | mk next result =>
          rw [outcome] at first
          cases result with
          | error error => exact first
          | ok ids =>
              have others := first.trans (inductionHypothesis
                (fun number member => areTopLevel number (List.mem_cons_of_mem _ member))
                (since.edits first))
              dsimp only
              cases made : buildAll tree parent rest next with
              | mk last result =>
                  rw [made] at others
                  cases result <;> exact others

end Reached

end Building

/-- What is made is reached by edits; after a failure, the new children of the parent are
discarded at the end. -/
theorem PageState.edits_materialize (page : PageState) (tree : PageTree) (parent : Option String) :
    ∃ building, Building.Edits tree page (parent.getD page.id) ⟨page, []⟩ building ∧
      ((∃ ids, page.materialize tree parent = (building, .ok ids)) ∨
        ∃ error, page.materialize tree parent =
          (⟨building.page.discardOthers (parent.getD page.id)
            (page.children (parent.getD page.id)), building.emitted⟩, .error error)) := by
  have since : Building.Since page ⟨page, []⟩ := ⟨rfl, Nat.le_refl _⟩
  have edits : Building.Edits tree page (parent.getD page.id) ⟨page, []⟩ _ :=
    Building.edits_buildAll (fun _ member => member) since
  refine ⟨_, edits, ?_⟩
  unfold materialize
  cases outcome : Building.buildAll tree (parent.getD page.id)
      (tree.element PageTree.root).children ⟨page, []⟩ with
  | mk building result =>
      cases result with
      | error error => exact Or.inr ⟨error, by simp [outcome]⟩
      | ok ids => exact Or.inl ⟨ids, by simp [outcome]⟩

end LivePage
