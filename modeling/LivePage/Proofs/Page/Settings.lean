import LivePage.Page.Materialize

/-!
Contract: what attributes make of a component.

Owns:
- the setting that the name of an attribute stands for;
- what attributes leave as it was: the component's identity, place and arguments;
- taking attributes: which settings a component has afterwards;
- attributes can be taken exactly when every property among them has a typed value.

Does not own: which attributes a component takes.
-/

namespace LivePage

/-! ## Names of settings -/

namespace Setting

private theorem cut_iff (word : String) {marked rest name : String}
    (isMarked : marked.toList = word.toList ++ [':']) (noColon : ':' ∉ word.toList) :
    Text.cutText? ':' name = some (word, rest) ↔ name = marked ++ rest := by
  rw [Text.cutText?_eq_some_iff]
  constructor
  · intro both
    apply String.toList_injective
    simp [both.1, isMarked]
  · intro same
    rw [same]
    exact ⟨by simp [isMarked], noColon⟩

theorem ofName_eq_event_iff {name eventType : String} :
    ofName name = .event eventType ↔ name = "on:" ++ eventType := by
  rw [← cut_iff "on" rfl (by decide)]
  unfold ofName
  split <;> simp_all

theorem ofName_eq_domAttribute_iff {name attributeName : String} :
    ofName name = .domAttribute attributeName ↔ name = "attr:" ++ attributeName := by
  rw [← cut_iff "attr" rfl (by decide)]
  unfold ofName
  split <;> simp_all

theorem ofName_eq_controller_iff {name controllerName : String} :
    ofName name = .controller controllerName ↔ name = "controller:" ++ controllerName := by
  rw [← cut_iff "controller" rfl (by decide)]
  unfold ofName
  split <;> simp_all

/-- A property goes by the whole name of its attribute. -/
theorem eq_of_ofName_eq_property {name propertyName : String}
    (isProperty : ofName name = .property propertyName) : propertyName = name := by
  unfold ofName at isProperty
  split at isProperty <;> simp_all

end Setting

/-! ## What stays -/

namespace Component

/-- Two components that differ at most in their settings. -/
structure SameFrame (before after : Component) : Prop where
  id : after.id = before.id
  tag : after.tag = before.tag
  widgetClass : after.widgetClass = before.widgetClass
  parent : after.parent = before.parent
  children : after.children = before.children
  arguments : after.arguments = before.arguments

theorem SameFrame.refl (component : Component) : component.SameFrame component :=
  ⟨rfl, rfl, rfl, rfl, rfl, rfl⟩

theorem SameFrame.trans {first second third : Component} (before : first.SameFrame second)
    (after : second.SameFrame third) : first.SameFrame third :=
  ⟨after.id.trans before.id, after.tag.trans before.tag,
    after.widgetClass.trans before.widgetClass, after.parent.trans before.parent,
    after.children.trans before.children, after.arguments.trans before.arguments⟩

end Component

/-! ## Single attributes -/

namespace Definition

/-- The typed value of a property: text, unless the definition declares another kind. -/
def typed? (definition : Definition) (name raw : String) : Option Property :=
  ((definition.attributes.get? name).getD .text).coerce? raw

/-- Only declared attributes have other kinds than text. -/
theorem getD_attributeKind? (definition : Definition) (name : String) :
    (definition.attributeKind? name).getD .text = (definition.attributes.get? name).getD .text := by
  unfold attributeKind?
  split
  · next kind declared => rw [declared]
  · next undeclared =>
      rw [undeclared]
      split
      · rfl
      · split <;> rfl

theorem coerce_eq_ok_iff {definition : Definition} {name raw : String} {property : Property} :
    definition.coerce name raw = .ok property ↔ definition.typed? name raw = some property := by
  unfold coerce typed?
  rw [getD_attributeKind?]
  dsimp only
  split
  · next isTyped => simp [isTyped]
  · next isTyped => simp [isTyped]

/-- Every property among some attributes has a typed value. -/
def Coerces (definition : Definition) (attributes : Dict String) : Prop :=
  ∀ name raw, attributes.get? name = some raw → Setting.ofName name = .property name →
    (definition.typed? name raw).isSome

end Definition

namespace Component

variable {definition : Definition}

/-- What one attribute changes. -/
structure TakesOne (definition : Definition) (name raw : String) (before after : Component) :
    Prop where
  sameFrame : before.SameFrame after
  property : Setting.ofName name = .property name →
    ∃ value, definition.typed? name raw = some value ∧
      after.properties = before.properties.insert name value
  noProperty : Setting.ofName name ≠ .property name → after.properties = before.properties
  event : ∀ eventType, after.events.get? eventType =
    if name = "on:" ++ eventType then some raw else before.events.get? eventType
  domAttribute : ∀ attributeName, after.domAttributes.get? attributeName =
    if name = "attr:" ++ attributeName then some raw
    else before.domAttributes.get? attributeName
  controller : ∀ controllerName, after.controllers.get? controllerName =
    if name = "controller:" ++ controllerName then some raw
    else before.controllers.get? controllerName

/-- What an attribute changes, by the setting that its name stands for. -/
private theorem TakesOne.of_setting {name raw : String} {before after : Component}
    {setting : Setting} (isSetting : Setting.ofName name = setting)
    (sameFrame : before.SameFrame after)
    (property : setting = .property name → ∃ value, definition.typed? name raw = some value ∧
      after.properties = before.properties.insert name value)
    (noProperty : setting ≠ .property name → after.properties = before.properties)
    (event : ∀ eventType, after.events.get? eventType =
      if setting = .event eventType then some raw else before.events.get? eventType)
    (domAttribute : ∀ attributeName, after.domAttributes.get? attributeName =
      if setting = .domAttribute attributeName then some raw
      else before.domAttributes.get? attributeName)
    (controller : ∀ controllerName, after.controllers.get? controllerName =
      if setting = .controller controllerName then some raw
      else before.controllers.get? controllerName) :
    TakesOne definition name raw before after where
  sameFrame := sameFrame
  property := by rwa [isSetting]
  noProperty := by rwa [isSetting]
  event := by simpa only [← isSetting, Setting.ofName_eq_event_iff] using event
  domAttribute := by simpa only [← isSetting, Setting.ofName_eq_domAttribute_iff] using domAttribute
  controller := by simpa only [← isSetting, Setting.ofName_eq_controller_iff] using controller

theorem takesOne_of_apply {name raw : String} {before after : Component}
    (applied : before.apply definition name raw = .ok after) :
    TakesOne definition name raw before after := by
  unfold apply at applied
  cases setting : Setting.ofName name with
  | event eventType =>
      rw [setting] at applied
      cases applied
      refine .of_setting setting ⟨rfl, rfl, rfl, rfl, rfl, rfl⟩ nofun (fun _ => rfl) ?_ ?_ ?_
      · intro other
        simp [bindEvent, Dict.get?_insert, eq_comm]
      · intro other
        simp [bindEvent]
      · intro other
        simp [bindEvent]
  | domAttribute attributeName =>
      rw [setting] at applied
      cases applied
      refine .of_setting setting ⟨rfl, rfl, rfl, rfl, rfl, rfl⟩ nofun (fun _ => rfl) ?_ ?_ ?_
      · intro other
        simp [setDomAttribute]
      · intro other
        simp [setDomAttribute, Dict.get?_insert, eq_comm]
      · intro other
        simp [setDomAttribute]
  | controller controllerName =>
      rw [setting] at applied
      cases applied
      refine .of_setting setting ⟨rfl, rfl, rfl, rfl, rfl, rfl⟩ nofun (fun _ => rfl) ?_ ?_ ?_
      · intro other
        simp [setController]
      · intro other
        simp [setController]
      · intro other
        simp [setController, Dict.get?_insert, eq_comm]
  | property propertyName =>
      have isName := Setting.eq_of_ofName_eq_property setting
      subst isName
      rw [setting] at applied
      dsimp only at applied
      cases coerced : definition.coerce propertyName raw with
      | error error =>
          rw [coerced] at applied
          cases applied
      | ok value =>
          rw [coerced] at applied
          cases applied
          refine .of_setting setting ⟨rfl, rfl, rfl, rfl, rfl, rfl⟩ ?_ ?_ ?_ ?_ ?_
          · intro _
            exact ⟨value, Definition.coerce_eq_ok_iff.mp coerced, rfl⟩
          · intro noProperty
            exact absurd rfl noProperty
          · intro other
            simp [setProperty]
          · intro other
            simp [setProperty]
          · intro other
            simp [setProperty]

theorem exists_apply_iff (before : Component) {name raw : String} :
    (∃ after, before.apply definition name raw = .ok after) ↔
      (Setting.ofName name = .property name → (definition.typed? name raw).isSome) := by
  unfold apply
  cases setting : Setting.ofName name with
  | event eventType => simp
  | domAttribute attributeName => simp
  | controller controllerName => simp
  | property propertyName =>
      have isName := Setting.eq_of_ofName_eq_property setting
      subst isName
      dsimp only
      cases coerced : definition.coerce propertyName raw with
      | error error =>
          have untyped : definition.typed? propertyName raw = none := by
            cases typed : definition.typed? propertyName raw with
            | none => rfl
            | some value =>
                rw [Definition.coerce_eq_ok_iff.mpr typed] at coerced
                cases coerced
          simp [Except.map, untyped]
      | ok value => simp [Except.map, Definition.coerce_eq_ok_iff.mp coerced]

/-! ## All attributes of an element -/

/-- What a component becomes by taking attributes. The settings that the attributes do
not name stay what they were. -/
structure Takes (definition : Definition) (attributes : Dict String) (before after : Component) :
    Prop where
  sameFrame : before.SameFrame after
  property : ∀ name raw, attributes.get? name = some raw → Setting.ofName name = .property name →
    ∃ value, definition.typed? name raw = some value ∧ after.properties.get? name = some value
  otherProperty : ∀ name, attributes.get? name = none ∨ Setting.ofName name ≠ .property name →
    after.properties.get? name = before.properties.get? name
  event : ∀ eventType, after.events.get? eventType =
    (attributes.get? ("on:" ++ eventType)).or (before.events.get? eventType)
  domAttribute : ∀ attributeName, after.domAttributes.get? attributeName =
    (attributes.get? ("attr:" ++ attributeName)).or
      (before.domAttributes.get? attributeName)
  controller : ∀ controllerName, after.controllers.get? controllerName =
    (attributes.get? ("controller:" ++ controllerName)).or
      (before.controllers.get? controllerName)

theorem takes_empty (component : Component) : Takes definition .empty component component where
  sameFrame := .refl component
  property := by
    intro name raw found
    cases found
  otherProperty := fun _ _ => rfl
  event := fun _ => rfl
  domAttribute := fun _ => rfl
  controller := fun _ => rfl

/-- One attribute in front of others, with a name of its own. -/
theorem TakesOne.takes {name raw : String} {before middle after : Component}
    {attributes rest : Dict String} (first : TakesOne definition name raw before middle)
    (others : Takes definition rest middle after)
    (split : ∀ key, attributes.get? key = if key = name then some raw else rest.get? key)
    (apart : rest.get? name = none) : Takes definition attributes before after where
  sameFrame := first.sameFrame.trans others.sameFrame
  property := by
    intro key value found isProperty
    rw [split] at found
    by_cases isFirst : key = name
    · rw [if_pos isFirst] at found
      cases found
      subst isFirst
      obtain ⟨typed, isTyped, inserted⟩ := first.property isProperty
      refine ⟨typed, isTyped, ?_⟩
      rw [others.otherProperty key (Or.inl apart), inserted, Dict.get?_insert, if_pos rfl]
    · rw [if_neg isFirst] at found
      exact others.property key value found isProperty
  otherProperty := by
    intro key untouched
    rw [split] at untouched
    by_cases isFirst : key = name
    · rw [if_pos isFirst] at untouched
      subst isFirst
      have noProperty := untouched.resolve_left (by simp)
      rw [others.otherProperty key (Or.inr noProperty), first.noProperty noProperty]
    · rw [if_neg isFirst] at untouched
      rw [others.otherProperty key untouched]
      by_cases isProperty : Setting.ofName name = .property name
      · obtain ⟨typed, -, inserted⟩ := first.property isProperty
        rw [inserted, Dict.get?_insert, if_neg isFirst]
      · rw [first.noProperty isProperty]
  event := by
    intro eventType
    rw [others.event, first.event, split]
    by_cases isFirst : "on:" ++ eventType = name
    · rw [if_pos isFirst.symm, if_pos isFirst, isFirst, apart]
      rfl
    · rw [if_neg (Ne.symm isFirst), if_neg isFirst]
  domAttribute := by
    intro attributeName
    rw [others.domAttribute, first.domAttribute, split]
    by_cases isFirst : "attr:" ++ attributeName = name
    · rw [if_pos isFirst.symm, if_pos isFirst, isFirst, apart]
      rfl
    · rw [if_neg (Ne.symm isFirst), if_neg isFirst]
  controller := by
    intro controllerName
    rw [others.controller, first.controller, split]
    by_cases isFirst : "controller:" ++ controllerName = name
    · rw [if_pos isFirst.symm, if_pos isFirst, isFirst, apart]
      rfl
    · rw [if_neg (Ne.symm isFirst), if_neg isFirst]

theorem takes_of_applyAll {entries : List (String × String)} (ascending : Entries.Ascending entries)
    {before after : Component} (applied : before.applyAll definition entries = .ok after) :
    Takes definition ⟨entries, ascending⟩ before after := by
  induction entries generalizing before with
  | nil =>
      cases applied
      exact takes_empty _
  | cons entry rest inductionHypothesis =>
      obtain ⟨name, raw⟩ := entry
      have restAscending : Entries.Ascending rest := (List.pairwise_cons.mp ascending).2
      rw [applyAll] at applied
      cases appliedOne : before.apply definition name raw with
      | error error =>
          rw [appliedOne] at applied
          cases applied
      | ok middle =>
          rw [appliedOne] at applied
          have others := inductionHypothesis restAscending applied
          refine (takesOne_of_apply appliedOne).takes others ?_ ?_
          · intro key
            simp only [Dict.get?, Entries.find?, eq_comm]
          · -- The name is below all others, so that it occurs once.
            cases found : Dict.get? ⟨rest, restAscending⟩ name with
            | none => rfl
            | some value =>
                have member : (name, value) ∈ rest := Entries.mem_of_find? found
                have below := (List.pairwise_cons.mp ascending).1 _ member
                exact absurd below (String.lt_irrefl name)

theorem exists_applyAll_iff (before : Component) {attributes : Dict String} :
    (∃ after, before.applyAll definition attributes.toList = .ok after) ↔
      definition.Coerces attributes := by
  have asEntries : definition.Coerces attributes ↔
      ∀ entry ∈ attributes.toList, Setting.ofName entry.1 = .property entry.1 →
        (definition.typed? entry.1 entry.2).isSome := by
    constructor
    · intro coerces entry member
      exact coerces entry.1 entry.2 (Dict.mem_toList.mp member)
    · intro each name raw found
      exact each (name, raw) (Dict.mem_toList.mpr found)
  rw [asEntries]
  generalize attributes.toList = entries
  induction entries generalizing before with
  | nil => simp [applyAll]
  | cons entry rest inductionHypothesis =>
      obtain ⟨name, raw⟩ := entry
      rw [List.forall_mem_cons, ← exists_apply_iff before]
      cases appliedOne : before.apply definition name raw with
      | error error => simp [applyAll, appliedOne]
      | ok middle =>
          have others := inductionHypothesis middle
          simp only [applyAll, appliedOne, others, Except.ok.injEq, exists_eq', true_and]

theorem exists_takes_of_coerces {attributes : Dict String} (coerces : definition.Coerces attributes)
    (before : Component) : ∃ after, before.applyAll definition attributes.toList = .ok after ∧
      Takes definition attributes before after := by
  obtain ⟨after, applied⟩ := (exists_applyAll_iff before).mpr coerces
  exact ⟨after, applied, takes_of_applyAll attributes.ascending applied⟩

end Component

end LivePage
