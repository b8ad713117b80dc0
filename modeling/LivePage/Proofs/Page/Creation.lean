import LivePage.Proofs.Page.Announcement
import LivePage.Proofs.Page.Materialized
import LivePage.Proofs.Page.Rollback

/-!
Contract: what is told of the components that are made, and what is left if they are taken back.

Owns:
- invocations that announce each new component once, and parents before children;
- the parent's new children, which are the top-level components that the making names;
- the tree of components is as before when a making fails, and when what it made is discarded.

Does not own: what components show, and where invocations go.
-/

namespace LivePage

/-! ## Announced components -/

/-- The id of the component that an invocation announces. -/
def Invocation.createdId? (invocation : Invocation) : Option String :=
  invocation.created?.map (fun created => created.2.textAt "id")

def createdIds (invocations : List Invocation) : List String :=
  invocations.filterMap Invocation.createdId?

theorem createdIds_append (first second : List Invocation) :
    createdIds (first ++ second) = createdIds first ++ createdIds second :=
  List.filterMap_append

theorem createdIds_of_silent {invocations : List Invocation}
    (silent : ∀ invocation ∈ invocations, invocation.created? = none) :
    createdIds invocations = [] := by
  refine List.filterMap_eq_nil_iff.mpr (fun invocation isMade => ?_)
  rw [Invocation.createdId?, silent invocation isMade]
  rfl

theorem createdIds_announcement (place : String) (component : Component) :
    createdIds [.onClient PageState.createFunction [.str place, component.payload]] =
      [component.id] := by
  simp [createdIds, Invocation.createdId?, created?_announcement, Component.textAt_payload_id]

namespace PageState

/-- Invocations that announce the components that a page has and did not have before, each of them
once and under its parent, which was there before or was announced earlier. -/
structure Creates (origin : PageState) (invocations : List Invocation) (page : PageState) :
    Prop where
  once : (createdIds invocations).Nodup
  all : ∀ id, id ∈ createdIds invocations ↔
    origin.component? id = none ∧ (page.component? id).isSome
  hangs : ∀ invocation ∈ invocations, ∀ parent payload,
    invocation.created? = some (parent, payload) →
      ∃ component, page.component? (payload.textAt "id") = some component ∧
        component.parent = some parent
  parentsFirst : ∀ earlier invocation later parent payload,
    invocations = earlier ++ invocation :: later → invocation.created? = some (parent, payload) →
      (origin.component? parent).isSome ∨ parent ∈ createdIds earlier

namespace Creates

variable {origin page : PageState} {invocations : List Invocation}

theorem nothing (page : PageState) : Creates page [] page where
  once := List.nodup_nil
  all := by
    intro id
    constructor
    · intro isListed
      cases isListed
    · rintro ⟨isNone, isSome⟩
      rw [isNone] at isSome
      cases isSome
  hangs := by
    intro invocation isMade
    cases isMade
  parentsFirst := by
    intro earlier invocation later parent payload isSplit
    exact absurd isSplit (by simp)

/-- The last of several invocations, or one before it. -/
private theorem split_concat {last : Invocation} {earlier later : List Invocation}
    {invocation : Invocation} (isSplit : invocations ++ [last] = earlier ++ invocation :: later) :
    (invocations = earlier ∧ last = invocation) ∨
      ∃ others, invocations = earlier ++ invocation :: others := by
  rcases List.eq_nil_or_concat later with rfl | ⟨others, final, rfl⟩
  · obtain ⟨same, isLast⟩ := List.append_inj' isSplit rfl
    exact .inl ⟨same, List.singleton_inj.mp isLast⟩
  · have regrouped : invocations ++ [last] = (earlier ++ invocation :: others) ++ [final] := by
      rw [isSplit]
      simp
    exact .inr ⟨others, (List.append_inj' regrouped rfl).1⟩

/-- One more invocation that announces nothing. -/
theorem concat_silent (creates : Creates origin invocations page) {last : Invocation}
    (silent : last.created? = none) : Creates origin (invocations ++ [last]) page := by
  have noId : createdIds [last] = [] := by
    refine createdIds_of_silent (fun invocation isLast => ?_)
    rw [List.mem_singleton.mp isLast]
    exact silent
  have sameIds : createdIds (invocations ++ [last]) = createdIds invocations := by
    rw [createdIds_append, noId, List.append_nil]
  refine ⟨sameIds ▸ creates.once, sameIds ▸ creates.all, ?_, ?_⟩
  · intro invocation isMade parent payload announces
    rcases List.mem_append.mp isMade with isEarlier | isLast
    · exact creates.hangs invocation isEarlier parent payload announces
    · rw [List.mem_singleton.mp isLast, silent] at announces
      cases announces
  · intro earlier invocation later parent payload isSplit announces
    rcases split_concat isSplit with ⟨-, rfl⟩ | ⟨others, isEarlier⟩
    · rw [silent] at announces
      cases announces
    · exact creates.parentsFirst earlier invocation others parent payload isEarlier announces

/-- More invocations that announce nothing. -/
theorem append_silent (creates : Creates origin invocations page) {said : List Invocation}
    (silent : ∀ invocation ∈ said, invocation.created? = none) :
    Creates origin (invocations ++ said) page := by
  induction said generalizing invocations with
  | nil =>
      rw [List.append_nil]
      exact creates
  | cons first rest inductionHypothesis =>
      have next := creates.concat_silent (silent first List.mem_cons_self)
      have all := inductionHypothesis next
        (fun invocation isRest => silent invocation (List.mem_cons_of_mem _ isRest))
      rwa [List.append_assoc] at all

/-- Components may change in everything but their parents. -/
theorem of_same (creates : Creates origin invocations page) {other : PageState}
    (same : ∀ id, (other.component? id).map Component.parent =
      (page.component? id).map Component.parent) :
    Creates origin invocations other where
  once := creates.once
  all := by
    intro id
    rw [creates.all id, ← Option.isSome_map, ← same id, Option.isSome_map]
  hangs := by
    intro invocation isMade parent payload announces
    obtain ⟨component, found, hasParent⟩ := creates.hangs invocation isMade parent payload announces
    have isSame := same (payload.textAt "id")
    rw [found, Option.map_some, hasParent] at isSame
    obtain ⟨changed, foundChanged, sameParent⟩ := Option.map_eq_some_iff.mp isSame
    exact ⟨changed, foundChanged, sameParent⟩
  parentsFirst := creates.parentsFirst

/-- A new component is attached and announced. -/
theorem attached (creates : Creates origin invocations page) {place : String}
    {above component : Component} (foundAbove : page.component? place = some above)
    (isAbsent : page.component? component.id = none)
    (isNew : origin.component? component.id = none) :
    Creates origin
      (invocations ++ [.onClient createFunction [.str place, (component.under place).payload]])
      (page.drawId.attached place above component) := by
  let announcement : Invocation :=
    .onClient createFunction [.str place, (component.under place).payload]
  have announces : announcement.created? = some (place, (component.under place).payload) :=
    created?_announcement place (component.under place)
  have ids : createdIds (invocations ++ [announcement]) =
      createdIds invocations ++ [component.id] := by
    rw [createdIds_append]
    exact congrArg _ (createdIds_announcement place (component.under place))
  have others : ∀ id, id ≠ component.id →
      ((page.drawId.attached place above component).component? id).map Component.parent =
        (page.component? id).map Component.parent :=
    fun _ notNew => map_parent_attached foundAbove notNew
  have foundNew : (page.drawId.attached place above component).component? component.id =
      some (component.under place) := component?_attached_self
  refine ⟨?_, ?_, ?_, ?_⟩
  · rw [ids]
    refine List.nodup_append.mpr ⟨creates.once, List.nodup_singleton _, ?_⟩
    intro id isListed other isOther same
    rw [same, List.mem_singleton.mp isOther] at isListed
    have isPresent := ((creates.all component.id).mp isListed).2
    rw [isAbsent] at isPresent
    cases isPresent
  · intro id
    rw [ids, List.mem_append, List.mem_singleton, creates.all id]
    by_cases isNewOne : id = component.id
    · simp [isNewOne, isNew, foundNew]
    · rw [← Option.isSome_map (f := Component.parent) (x := (page.component? id)),
        ← others id isNewOne, Option.isSome_map]
      simp [isNewOne]
  · intro invocation isMade parent payload isAnnounced
    rcases List.mem_append.mp isMade with isEarlier | isLast
    · obtain ⟨present, found, hasParent⟩ :=
        creates.hangs invocation isEarlier parent payload isAnnounced
      have notNew : payload.textAt "id" ≠ component.id := by
        intro same
        rw [same, isAbsent] at found
        cases found
      have isSame := others _ notNew
      rw [found, Option.map_some, hasParent] at isSame
      exact Option.map_eq_some_iff.mp isSame
    · rw [List.mem_singleton.mp isLast] at isAnnounced
      cases announces.symm.trans isAnnounced
      rw [Component.textAt_payload_id]
      exact ⟨component.under place, foundNew, rfl⟩
  · intro earlier invocation later parent payload isSplit isAnnounced
    rcases split_concat isSplit with ⟨rfl, rfl⟩ | ⟨others, isEarlier⟩
    · cases announces.symm.trans isAnnounced
      cases foundBefore : origin.component? place with
      | some original => exact .inl rfl
      | none => exact .inr ((creates.all place).mpr ⟨foundBefore, by rw [foundAbove]; rfl⟩)
    · exact creates.parentsFirst earlier invocation others parent payload isEarlier isAnnounced

end Creates

/-! ## States of one page apart from its components -/

/-- Two states of a page that agree in what making and discarding components leaves alone. -/
structure SameApart (before after : PageState) : Prop where
  id : after.id = before.id
  sink : after.sink = before.sink
  queue : after.queue = before.queue
  isInitialized : after.isInitialized = before.isInitialized

namespace SameApart

variable {first second third : PageState}

theorem refl (page : PageState) : SameApart page page := ⟨rfl, rfl, rfl, rfl⟩

theorem trans (before : SameApart first second) (after : SameApart second third) :
    SameApart first third :=
  ⟨after.id.trans before.id, after.sink.trans before.sink, after.queue.trans before.queue,
    after.isInitialized.trans before.isInitialized⟩

theorem discard (page : PageState) (top : String) : SameApart page (page.discard top).1 := by
  unfold PageState.discard
  split
  · exact refl page
  · split
    · exact refl page
    · exact ⟨rfl, rfl, rfl, rfl⟩

theorem discardAll (page : PageState) (tops : List String) :
    SameApart page (tops.foldl (fun page top => (page.discard top).1) page) := by
  induction tops generalizing page with
  | nil => exact refl page
  | cons top rest inductionHypothesis => exact (discard page top).trans (inductionHypothesis _)

end SameApart

/-! ## What edits tell -/

theorem sameApart_of_edits {tree : PageTree} {origin : PageState} {parent : String}
    {building : Building} (edits : Building.Edits tree origin parent ⟨origin, []⟩ building) :
    SameApart origin building.page := by
  induction edits with
  | refl => exact .refl origin
  | tail _ edit inductionHypothesis =>
      cases edit with
      | draw => exact inductionHypothesis.trans ⟨rfl, rfl, rfl, rfl⟩
      | attach => exact inductionHypothesis.trans ⟨rfl, rfl, rfl, rfl⟩
      | setUp => exact inductionHypothesis.trans ⟨rfl, rfl, rfl, rfl⟩

theorem emit_of_isBound {page : PageState} (isBound : page.isBound = true)
    (invocation : Invocation) :
    (page.emit invocation).map Emission.invocation = [invocation] := by
  unfold emit
  obtain ⟨sink, isSink⟩ := Option.isSome_iff_exists.mp isBound
  rw [isSink]
  rfl

/-- What the client is told when the page is set up announces no component. -/
theorem silent_told (page : PageState) (name : String) (changed : Component) :
    ∀ invocation ∈ (page.told name changed).map Emission.invocation, invocation.created? = none := by
  intro invocation isTold
  obtain ⟨emission, isEmitted, rfl⟩ := List.mem_map.mp isTold
  unfold told at isEmitted
  split at isEmitted
  · unfold emit at isEmitted
    split at isEmitted
    · rw [List.mem_singleton.mp isEmitted]
      exact created?_update _ _ _
    · cases isEmitted
  · cases isEmitted

/-- On a page that is bound, the making of components announces each of them once. -/
theorem creates_of_edits {tree : PageTree} {origin : PageState} {parent : String}
    {building : Building} (intact : origin.Intact) (isBound : origin.isBound = true)
    (edits : Building.Edits tree origin parent ⟨origin, []⟩ building) :
    Creates origin (building.emitted.map Emission.invocation) building.page := by
  induction edits with
  | refl => exact .nothing origin
  | @tail building next before edit inductionHypothesis =>
      have grown := Grown.edits intact (.refl intact) before
      cases edit with
      | draw => exact inductionHypothesis.of_same (fun _ => rfl)
      | @attach place above component alive isOpen foundAbove isNew noChildren =>
          have stillBound : building.page.isBound = true := by
            rw [PageState.isBound, (sameApart_of_edits before).sink]
            exact isBound
          have isAbsent : building.page.component? component.id = none := by
            rw [isNew]
            exact grown.intact.nextId_fresh
          have wasAbsent : origin.component? component.id = none := by
            rw [isNew, nextId_eq, grown.id_eq]
            exact intact.fresh grown.counter_le
          rw [List.map_append, emit_of_isBound stillBound]
          exact inductionHypothesis.attached foundAbove isAbsent wasAbsent
      | @setUp definition name raw own changed isParent source foundOwn applied =>
          have frame := (Component.takesOne_of_apply applied).sameFrame
          rw [List.map_append]
          refine (inductionHypothesis.of_same ?_).append_silent (silent_told _ name changed)
          intro id
          rw [component?_replace]
          by_cases isPage : id = building.page.id
          · rw [if_pos isPage, isPage, foundOwn, Option.map_some, Option.map_some, frame.parent]
          · rw [if_neg isPage]

end PageState

/-! ## The children of the parent -/

namespace Building

variable {tree : PageTree} {place : String}

/-- A making that adds children to a component, and loses none of the others. -/
structure Adds (place : String) (before : Building) (ids : List String) (after : Building) :
    Prop where
  intact : after.page.Intact
  present : (after.page.component? place).isSome
  children : after.page.children place = before.page.children place ++ ids

theorem Adds.trans {first second third : Building} {earlier later : List String}
    (before : Adds place first earlier second) (after : Adds place second later third) :
    Adds place first (earlier ++ later) third where
  intact := after.intact
  present := after.present
  children := by rw [after.children, before.children, List.append_assoc]

/-- Below one component, the children of another one stay. -/
theorem adds_of_grown {before after : Building} {parent : String}
    (grown : PageState.Grown tree before.page parent after.page)
    (present : (before.page.component? place).isSome) (different : place ≠ parent) :
    Adds place before [] after := by
  obtain ⟨original, found⟩ := Option.isSome_iff_exists.mp present
  obtain ⟨component, foundNow, kept⟩ := grown.kept place original found
  obtain ⟨added, children_eq, -, onlyParent⟩ := kept.children
  refine ⟨grown.intact, by rw [foundNow]; rfl, ?_⟩
  simp only [PageState.children, found, foundNow, children_eq, onlyParent different]

theorem adds_attached {building : Building} {above component : Component}
    (intact : building.page.Intact) (foundAbove : building.page.component? place = some above)
    (isNew : component.id = building.page.nextId) (noChildren : component.children = [])
    (emitted : List Emission) :
    Adds place building [component.id]
      ⟨building.page.drawId.attached place above component, emitted⟩ := by
  have placeNotNew : place ≠ component.id := by
    rw [isNew]
    exact intact.ne_nextId_of_found foundAbove
  have foundPlace : (building.page.drawId.attached place above component).component? place =
      some (above.addChild component.id) := by
    rw [PageState.component?_attached, if_neg placeNotNew, if_pos rfl]
  refine ⟨intact.attached foundAbove isNew noChildren, by rw [foundPlace]; rfl, ?_⟩
  simp only [PageState.children, foundPlace, foundAbove]
  rfl

/-- The component of an element becomes the last child. -/
theorem adds_build {fuel number : Nat} {id : String} {building last : Building}
    (intact : building.page.Intact)
    (made : build tree fuel place number building = (last, .ok id)) :
    Adds place building [id] last := by
  cases fuel with
  | zero => cases made
  | succ fuel =>
      obtain ⟨-, isNext, definition, component, above, -, single, foundAbove, ids, content⟩ :=
        build_eq_ok_iff.mp made
      have frame := (takes_of_componentOf single).sameFrame
      have isNew : component.id = building.page.nextId := frame.id.trans isNext
      let middle : Building := ⟨building.page.drawId.attached place above component,
        building.emitted ++ building.page.drawId.emit (.onClient PageState.createFunction
          [.str place, (component.under place).payload])⟩
      have since : Since middle.page middle := ⟨rfl, Nat.le_refl _⟩
      have edits : Edits tree middle.page id middle _ :=
        edits_forEach (fun number _ later => edits_build fuel (.inl rfl) number later)
          (tree.element number).children since
      rw [content] at edits
      have first : Adds place building [component.id] middle :=
        adds_attached intact foundAbove isNew frame.children middle.emitted
      have placeNotNew : place ≠ id := by
        rw [isNext]
        exact intact.ne_nextId_of_found foundAbove
      have others := adds_of_grown (.edits first.intact (.refl first.intact) edits) first.present
        placeNotNew
      have all := first.trans others
      rwa [List.append_nil, isNew.trans isNext.symm] at all

theorem adds_forEach {fuel : Nat} {numbers : List Nat} {ids : List String}
    {building last : Building} (intact : building.page.Intact)
    (present : (building.page.component? place).isSome)
    (made : forEach (build tree fuel place) numbers building = (last, .ok ids)) :
    Adds place building ids last := by
  induction numbers generalizing building ids with
  | nil =>
      cases made
      exact ⟨intact, present, (List.append_nil _).symm⟩
  | cons number rest inductionHypothesis =>
      obtain ⟨next, id, more, single, others, rfl⟩ := forEach_cons_eq_ok_iff.mp made
      have first := adds_build intact single
      exact first.trans (inductionHypothesis first.intact first.present others)

/-- Settings of the page's own component add no child. -/
theorem adds_applyAllToPage {definition : Definition} {entries : List (String × String)}
    {building last : Building} (intact : building.page.Intact)
    (present : (building.page.component? place).isSome)
    (applied : applyAllToPage definition entries building = (last, .ok ())) :
    Adds place building [] last := by
  induction entries generalizing building with
  | nil =>
      cases applied
      exact ⟨intact, present, (List.append_nil _).symm⟩
  | cons entry rest inductionHypothesis =>
      obtain ⟨name, raw⟩ := entry
      obtain ⟨next, single, others⟩ := applyAllToPage_cons_eq_ok_iff.mp applied
      obtain ⟨own, changed, foundOwn, isApplied, rfl⟩ := applied_of_applyToPage single
      have frame := (Component.takesOne_of_apply isApplied).sameFrame
      have first : Adds place building []
          ⟨building.page.replace building.page.id changed,
            building.emitted ++ building.page.told name changed⟩ := by
        refine ⟨intact.replace foundOwn frame.id frame.parent frame.children, ?_, ?_⟩
        · rw [PageState.component?_replace]
          split
          · rfl
          · exact present
        · simp only [PageState.children, PageState.component?_replace]
          by_cases isPage : place = building.page.id
          · simp [isPage, foundOwn, frame.children]
          · simp [isPage]
      exact first.trans (inductionHypothesis first.intact first.present others)

theorem adds_buildTopLevel {number : Nat} {ids : List String} {building last : Building}
    (intact : building.page.Intact) (present : (building.page.component? place).isSome)
    (made : buildTopLevel tree place number building = (last, .ok ids)) :
    Adds place building ids last := by
  unfold buildTopLevel at made
  dsimp only at made
  split at made
  · cases isDefined : (tree.element number).definition with
    | none =>
        rw [isDefined] at made
        exact adds_forEach intact present made
    | some definition =>
        rw [isDefined] at made
        dsimp only at made
        rcases applied : applyAllToPage definition (tree.element number).attributes.toList building
          with ⟨next, error | nothing⟩
        · rw [applied] at made
          cases made
        · rw [applied] at made
          have first := adds_applyAllToPage intact present applied
          exact first.trans (adds_forEach first.intact first.present made)
  · exact adds_forEach intact present made

/-- The ids that a making names are those of the new children, in their order. -/
theorem adds_buildAll {numbers : List Nat} {ids : List String} {building last : Building}
    (intact : building.page.Intact) (present : (building.page.component? place).isSome)
    (made : buildAll tree place numbers building = (last, .ok ids)) :
    Adds place building ids last := by
  induction numbers generalizing building ids with
  | nil =>
      cases made
      exact ⟨intact, present, (List.append_nil _).symm⟩
  | cons number rest inductionHypothesis =>
      obtain ⟨next, first, more, single, others, rfl⟩ := buildAll_cons_eq_ok_iff.mp made
      have adds := adds_buildTopLevel intact present single
      exact adds.trans (inductionHypothesis adds.intact adds.present others)

end Building

namespace PageState

/-! ## Whole makings -/

/-- A page whose components form the tree that they formed before. -/
structure AsBefore (before after : PageState) : Prop where
  apart : SameApart before after
  intact : after.Intact
  sameIds : ∀ id, (after.component? id).isSome = (before.component? id).isSome
  sameChildren : ∀ id, after.children id = before.children id

theorem Restored.asBefore {tree : PageTree} {before after : PageState}
    (restored : Restored tree before after) (apart : SameApart before after)
    (intact : after.Intact) : AsBefore before after :=
  ⟨apart, intact, restored.sameIds, restored.sameChildren⟩

/-- What a making leaves if it succeeds: a page with announced components, which is as before once
the top-level ones are discarded. -/
structure MadeOn (origin : PageState) (building : Building) (ids : List String) : Prop where
  apart : SameApart origin building.page
  intact : building.page.Intact
  creates : origin.isBound = true →
    Creates origin (building.emitted.map Emission.invocation) building.page
  discarded : AsBefore origin (ids.foldl (fun page id => (page.discard id).1) building.page)

variable {page : PageState} {tree : PageTree} {building : Building}

/-- A making on the page itself that fails leaves the tree of components as it was. -/
theorem asBefore_of_error (intact : page.Intact) {error : MaterializeError}
    (failed : page.materialize tree none = (building, .error error)) :
    AsBefore page building.page := by
  obtain ⟨made, edits, ⟨ids, outcome⟩ | ⟨other, outcome⟩⟩ := edits_materialize page tree none
  · rw [failed] at outcome
    cases outcome
  · rw [failed] at outcome
    cases outcome
    have grown := Grown.edits intact (.refl intact) edits
    obtain ⟨left, noneAdded⟩ := grown.discardOthers intact
    exact (left.restored intact noneAdded).asBefore
      ((sameApart_of_edits edits).trans (.discardAll _ _)) left.intact

/-- A making on the page itself that succeeds names all new children of the page. -/
theorem madeOn_of_ok (intact : page.Intact) {ids : List String}
    (succeeds : page.materialize tree none = (building, .ok ids)) : MadeOn page building ids := by
  obtain ⟨made, edits, ⟨others, outcome⟩ | ⟨error, outcome⟩⟩ := edits_materialize page tree none
  · rw [succeeds] at outcome
    cases outcome
    have grown := Grown.edits intact (.refl intact) edits
    obtain ⟨own, foundOwn, -⟩ := intact.root
    have present : (page.component? page.id).isSome := by
      rw [foundOwn]
      rfl
    have adds : Building.Adds page.id ⟨page, []⟩ ids building :=
      Building.adds_buildAll intact present (materialize_eq_ok_iff.mp succeeds)
    have ownChildren : page.children page.id = own.children := by
      rw [children, foundOwn]
    -- the ids are what the child list of the page has gained
    obtain ⟨component, foundNow, kept⟩ := grown.kept page.id own foundOwn
    obtain ⟨added, children_eq, areNew, -⟩ := kept.children
    have isAdded : added = ids := by
      have sameList : component.children = page.children page.id ++ ids := by
        rw [← adds.children, children, foundNow]
      rw [children_eq, ownChildren] at sameList
      exact List.append_cancel_left sameList
    subst isAdded
    have areAll : ∀ child ∈ building.page.children page.id, page.component? child = none →
        child ∈ added := by
      intro child isChild isAbsent
      rw [adds.children, ownChildren, List.mem_append] at isChild
      rcases isChild with wasChild | isNew
      · obtain ⟨below, foundBelow, -⟩ := intact.listed foundOwn wasChild
        rw [isAbsent] at foundBelow
        cases foundBelow
      · exact isNew
    obtain ⟨left, noneAdded⟩ := grown.discardAll intact areNew areAll
    have apart := sameApart_of_edits edits
    exact ⟨apart, grown.intact, fun isBound => creates_of_edits intact isBound edits,
      (left.restored intact noneAdded).asBefore (apart.trans (.discardAll _ _)) left.intact⟩
  · rw [succeeds] at outcome
    cases outcome

end PageState

end LivePage
