import LivePage.Proofs.Page.Discard
import LivePage.Proofs.Page.EventOrder
import LivePage.Proofs.Page.Making

/-!
Contract: where the invocations of a page go.

Owns:
- states of a page that belong to the same id and sink;
- what handlers, the processing of a queue and the making of components emit goes to the sink
  of the page, which stays the same until the page ends.

Does not own: who binds pages to sinks.
-/

namespace LivePage

namespace PageState

/-! ## States of one page -/

/-- Two states of a page with the same sink. -/
structure SameBinding (before after : PageState) : Prop where
  id : after.id = before.id
  sink : after.sink = before.sink
  isDestroyed : after.isDestroyed = before.isDestroyed

namespace SameBinding

theorem refl (page : PageState) : SameBinding page page :=
  ⟨rfl, rfl, rfl⟩

theorem trans {first second third : PageState} (before : SameBinding first second)
    (after : SameBinding second third) : SameBinding first third :=
  ⟨after.id.trans before.id, after.sink.trans before.sink,
    after.isDestroyed.trans before.isDestroyed⟩

theorem discard (page : PageState) (top : String) : SameBinding page (page.discard top).1 where
  id := id_discard page top
  sink := by
    unfold PageState.discard
    split
    · rfl
    · split <;> rfl
  isDestroyed := isDestroyed_discard page top

theorem discardAll (page : PageState) (tops : List String) :
    SameBinding page (tops.foldl (fun page top => (page.discard top).1) page) := by
  induction tops generalizing page with
  | nil => exact refl page
  | cons top rest inductionHypothesis => exact (discard page top).trans (inductionHypothesis _)

end SameBinding

/-- The page has ended, and goes nowhere any more. -/
structure Ended (before after : PageState) : Prop where
  id : after.id = before.id
  sink : after.sink = none
  isDestroyed : after.isDestroyed = true

/-- A page on its way, and what it emits, all of which goes to its sink. The sink stays until
the page ends. -/
structure Speaks (before : PageState) (emitted : List Emission) (after : PageState) : Prop where
  stays : SameBinding before after ∨ Ended before after
  addressed : ∀ emission ∈ emitted, before.sink = some emission.sink

namespace Speaks

theorem silent {before after : PageState} (same : SameBinding before after) :
    Speaks before [] after :=
  ⟨Or.inl same, fun _ isEmitted => absurd isEmitted List.not_mem_nil⟩

theorem trans {first second third : PageState} {earlier later : List Emission}
    (before : Speaks first earlier second) (after : Speaks second later third) :
    Speaks first (earlier ++ later) third where
  stays := by
    obtain same | ended := before.stays
    · obtain others | ended := after.stays
      · exact Or.inl (same.trans others)
      · exact Or.inr ⟨ended.id.trans same.id, ended.sink, ended.isDestroyed⟩
    · obtain others | again := after.stays
      · exact Or.inr ⟨others.id.trans ended.id, others.sink.trans ended.sink,
          others.isDestroyed.trans ended.isDestroyed⟩
      · exact Or.inr ⟨again.id.trans ended.id, again.sink, again.isDestroyed⟩
  addressed := by
    intro emission isEmitted
    obtain isEarlier | isLater := List.mem_append.mp isEmitted
    · exact before.addressed emission isEarlier
    · have addressed := after.addressed emission isLater
      obtain same | ended := before.stays
      · rwa [same.sink] at addressed
      · rw [ended.sink] at addressed
        cases addressed

/-- What a page emits of itself goes to its sink. -/
theorem emit {before after : PageState} (same : SameBinding before after)
    (invocation : Invocation) : Speaks before (before.emit invocation) after := by
  refine ⟨Or.inl same, ?_⟩
  intro emission isEmitted
  unfold PageState.emit at isEmitted
  split at isEmitted
  · next isSink =>
      rw [List.mem_singleton.mp isEmitted]
      exact isSink
  · cases isEmitted

theorem setProperty {before after : PageState} {target name : String} {value : Property}
    {emitted : List Emission}
    (set : before.setProperty target name value = .ok (after, emitted)) :
    Speaks before emitted after := by
  obtain ⟨-, component, -, rfl, rfl⟩ := setProperty_eq_ok_iff.mp set
  have same : SameBinding before (before.replace target (component.setProperty name value)) :=
    ⟨rfl, rfl, rfl⟩
  exact emit same _

theorem destroy (page : PageState) : Speaks page [] page.destroy := by
  refine ⟨?_, fun _ isEmitted => absurd isEmitted List.not_mem_nil⟩
  unfold PageState.destroy
  split
  · exact Or.inl (.refl page)
  · exact Or.inr ⟨rfl, rfl, rfl⟩

end Speaks

end PageState

/-! ## Making components -/

/-- Making components keeps the sink of a page, and emits to it. -/
theorem PageState.speaks_of_edits {tree : PageTree} {origin : PageState} {parent : String}
    {building : Building} (edits : Building.Edits tree origin parent ⟨origin, []⟩ building) :
    SameBinding origin building.page ∧
      ∀ emission ∈ building.emitted, origin.sink = some emission.sink := by
  induction edits with
  | refl => exact ⟨.refl origin, fun _ isEmitted => absurd isEmitted List.not_mem_nil⟩
  | @tail building next _ edit inductionHypothesis =>
      obtain ⟨same, addressed⟩ := inductionHypothesis
      -- what one more edit emits comes from the page as it is by then, which has the same sink
      have step : ∀ {after : PageState} {told : List Emission},
          SameBinding building.page after → Speaks building.page told after →
            SameBinding origin after ∧
              ∀ emission ∈ building.emitted ++ told, origin.sink = some emission.sink := by
        intro after told sameStep speaks
        refine ⟨same.trans sameStep, ?_⟩
        have before : Speaks origin building.emitted building.page := ⟨Or.inl same, addressed⟩
        exact (before.trans speaks).addressed
      cases edit with
      | draw => exact ⟨same.trans ⟨rfl, rfl, rfl⟩, addressed⟩
      | @attach place above component _ _ _ _ _ =>
          have attached : SameBinding building.page
              (building.page.drawId.attached place above component) := ⟨rfl, rfl, rfl⟩
          exact step attached (Speaks.emit attached _)
      | @setUp _ _ _ _ changed _ _ _ _ =>
          have replaced : SameBinding building.page
              (building.page.replace building.page.id changed) := ⟨rfl, rfl, rfl⟩
          refine step replaced ?_
          unfold PageState.told
          split
          · exact Speaks.emit replaced _
          · exact Speaks.silent replaced

theorem PageState.speaks_materialize (page : PageState) (tree : PageTree)
    (parent : Option String) :
    SameBinding page (page.materialize tree parent).1.page ∧
      ∀ emission ∈ (page.materialize tree parent).1.emitted,
        page.sink = some emission.sink := by
  obtain ⟨building, edits, ⟨ids, outcome⟩ | ⟨error, outcome⟩⟩ :=
    page.edits_materialize tree parent
  · rw [outcome]
    exact speaks_of_edits edits
  · rw [outcome]
    obtain ⟨same, addressed⟩ := speaks_of_edits edits
    exact ⟨same.trans (SameBinding.discardAll _ _), addressed⟩

/-! ## Handlers -/

/-- The invocations among effects. -/
def emissionsOf (effects : List PageEffect) : List Emission :=
  effects.filterMap (fun
    | .emission emission => some emission
    | .note _ => none)

@[simp] theorem emissionsOf_append (earlier later : List PageEffect) :
    emissionsOf (earlier ++ later) = emissionsOf earlier ++ emissionsOf later :=
  List.filterMap_append

@[simp] theorem emissionsOf_effectsOf (emissions : List Emission) :
    emissionsOf (Page.effectsOf emissions) = emissions := by
  induction emissions with
  | nil => rfl
  | cons emission rest inductionHypothesis =>
      exact congrArg (List.cons emission) inductionHypothesis

theorem mem_emissionsOf {emission : Emission} {effects : List PageEffect} :
    emission ∈ emissionsOf effects ↔ .emission emission ∈ effects := by
  unfold emissionsOf
  rw [List.mem_filterMap]
  constructor
  · rintro ⟨effect, isEffect, isEmission⟩
    cases effect with
    | emission other => cases isEmission; exact isEffect
    | note entry => cases isEmission
  · intro isEffect
    exact ⟨.emission emission, isEffect, rfl⟩

namespace Page

open PageState

/-- A page on its way, with what happens outside because of it. -/
def Speaks (before : Page) (effects : List PageEffect) (after : Page) : Prop :=
  before.state.Speaks (emissionsOf effects) after.state

theorem Speaks.trans {first second third : Page} {earlier later : List PageEffect}
    (before : Speaks first earlier second) (after : Speaks second later third) :
    Speaks first (earlier ++ later) third := by
  unfold Speaks
  rw [emissionsOf_append]
  exact PageState.Speaks.trans before after

/-- A change that nobody is told of. -/
theorem Speaks.silent {before after : Page} (same : SameBinding before.state after.state) :
    Speaks before [] after :=
  PageState.Speaks.silent same

/-- What is queued on a page goes nowhere. -/
theorem Speaks.queueAll {before after : Page} {effects : List PageEffect}
    (speaks : Speaks before effects after) (events : List Event) :
    Speaks before effects (after.withState (after.state.queueAll events)) := by
  have queued : Speaks after [] (after.withState (after.state.queueAll events)) :=
    .silent ⟨rfl, rfl, rfl⟩
  have both := speaks.trans queued
  rwa [List.append_nil] at both

theorem speaks_emit (page : Page) (invocation : Invocation) :
    Speaks page (effectsOf (page.state.emit invocation)) page := by
  unfold Speaks
  rw [emissionsOf_effectsOf]
  exact PageState.Speaks.emit (.refl _) invocation

/-- What a reaction emits goes to the sink of the page. -/
theorem speaks_run (reaction : Reaction) (page : Page) :
    Speaks page (run reaction page).2.1 (run reaction page).1 := by
  induction reaction generalizing page with
  | done => exact .silent (.refl _)
  | fail error => exact .silent (.refl _)
  | look next inductionHypothesis => exact inductionHypothesis page.state page
  | note entry next inductionHypothesis => exact inductionHypothesis page
  | setProperty target name value next inductionHypothesis =>
      unfold run
      cases set : page.state.setProperty target name value with
      | ok result =>
          have first : Speaks page (effectsOf result.2) (page.withState result.1) := by
            unfold Speaks
            rw [emissionsOf_effectsOf]
            exact PageState.Speaks.setProperty set
          exact (first.queueAll _).trans (inductionHypothesis (.ok ()) _)
      | error error => exact inductionHypothesis (.error error) page
  | invoke invocation next inductionHypothesis =>
      exact ((speaks_emit page invocation).queueAll _).trans (inductionHypothesis _)
  | queueEvent event next inductionHypothesis =>
      have first : Speaks page [] (page.withState (page.state.queueEvent event)) :=
        .silent ⟨rfl, rfl, rfl⟩
      exact first.trans (inductionHypothesis _)
  | clearQueue next inductionHypothesis =>
      have first : Speaks page [] (page.withState page.state.clearQueue) :=
        .silent ⟨rfl, rfl, rfl⟩
      exact first.trans (inductionHypothesis _)
  | discard target next inductionHypothesis =>
      have first : Speaks page [] (page.withState (page.state.discard target).1) :=
        .silent (.discard page.state target)
      exact first.trans (inductionHypothesis _ _)
  | setHandler name handler next _ inductionHypothesis =>
      have first : Speaks page [] (page.setHandler name handler) := .silent (.refl _)
      exact first.trans (inductionHypothesis _)
  | addListener target eventType listener next _ inductionHypothesis =>
      have first : Speaks page [] (page.addListener target eventType listener) :=
        .silent (.refl _)
      exact first.trans (inductionHypothesis _)
  | destroy next inductionHypothesis =>
      have first : Speaks page [] page.destroy := by
        have ended := PageState.Speaks.destroy page.state
        unfold Page.destroy
        split
        · exact .silent (.refl _)
        · exact ended
      exact first.trans (inductionHypothesis _)

theorem speaks_of_runs {event : Event} {page last : Page} {runs : List (HandlerRun event)}
    (chain : HandlerRun.Chain page runs last) :
    Speaks page (runs.flatMap HandlerRun.effects) last := by
  induction runs generalizing page with
  | nil =>
      subst chain
      exact .silent (.refl _)
  | cons current rest inductionHypothesis =>
      have first : Speaks page current.effects current.left :=
        chain.1 ▸ speaks_run (current.handler event) current.page
      exact first.trans (inductionHypothesis chain.2)

theorem speaks_dispatch (current : Dispatch) :
    Speaks current.page current.effects current.left := by
  cases current.answered with
  | refused isRefused outcome isEmpty =>
      rw [Dispatch.effects, Dispatch.left, outcome]
      exact .silent (.refl _)
  | served audience served =>
      have runs := speaks_of_runs served.chain
      rwa [← served.effects] at runs

theorem speaks_of_dispatches {page last : Page} {dispatches : List Dispatch}
    (chain : Dispatch.Chain page dispatches last) :
    Speaks page (dispatches.flatMap Dispatch.effects) last := by
  induction dispatches generalizing page with
  | nil =>
      subst chain
      exact .silent (.refl _)
  | cons current rest inductionHypothesis =>
      have first : Speaks page [] current.page := chain.1 ▸ .silent ⟨rfl, rfl, rfl⟩
      exact (first.trans (speaks_dispatch current)).trans (inductionHypothesis chain.2)

/-- What happens while a queue is processed goes to the sink of the page. -/
theorem speaks_drain (fuel count : Nat) (page : Page) :
    Speaks page (drain fuel count page).2.1 (drain fuel count page).1 := by
  have processed := processed_drain fuel count page
  rw [processed.effects]
  exact speaks_of_dispatches processed.chain

end Page

end LivePage
