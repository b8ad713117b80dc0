import LivePage.Proofs.Page.Announcement
import LivePage.Proofs.Page.Discard
import LivePage.Proofs.Page.Making

/-!
Contract: what holds of a page whatever has been done to it.

Owns:
- the calls that change a page, and sequences of them from a new page on;
- a page is intact until it is destroyed, and has no components afterwards;
- numbers are drawn once: what a page announces, and which components it has later on;
- the components of a page form a tree at any time.

Does not own: what single calls achieve.
-/

namespace LivePage

/-- Something done to a page. -/
inductive PageCall where
  | materialize (tree : PageTree) (parent : Option String)
  | setProperty (target name : String) (value : Property)
  | discard (target : String)
  | destroy
  | drawId
  | bind (sink : Sink)
  | unbind
  | queueEvent (event : Event)
  | takeEvent
  | clearQueue
  | setBrowser (browser : Dict Json)
  | markInitialized

/-- Two components that differ at most in their settings and children. -/
structure Component.SameIdentity (before after : Component) : Prop where
  tag : after.tag = before.tag
  widgetClass : after.widgetClass = before.widgetClass
  parent : after.parent = before.parent
  arguments : after.arguments = before.arguments

namespace PageState

/-- The page after a call, and what it emitted. -/
def perform (page : PageState) : PageCall → PageState × List Emission
  | .materialize tree parent =>
      let building := (page.materialize tree parent).1
      (building.page, building.emitted)
  | .setProperty target name value =>
      match page.setProperty target name value with
      | .ok result => result
      | .error _ => (page, [])
  | .discard target => ((page.discard target).1, [])
  | .destroy => (page.destroy, [])
  | .drawId => (page.drawId, [])
  | .bind sink => (page.bind sink, [])
  | .unbind => (page.unbind, [])
  | .queueEvent event => (page.queueEvent event, [])
  | .takeEvent => ({ page with queue := page.queue.tail }, [])
  | .clearQueue => (page.clearQueue, [])
  | .setBrowser browser => (page.setBrowser browser, [])
  | .markInitialized => (page.markInitialized, [])

/-- The page after calls, and what they emitted. -/
def performAll (page : PageState) : List PageCall → PageState × List Emission
  | [] => (page, [])
  | call :: rest =>
      let first := page.perform call
      let others := first.1.performAll rest
      (others.1, first.2 ++ others.2)

theorem performAll_append (page : PageState) (earlier later : List PageCall) :
    page.performAll (earlier ++ later) =
      (((page.performAll earlier).1.performAll later).1,
        (page.performAll earlier).2 ++ ((page.performAll earlier).1.performAll later).2) := by
  induction earlier generalizing page with
  | nil => rfl
  | cons call rest inductionHypothesis =>
      simp only [List.cons_append, performAll, inductionHypothesis, List.append_assoc]

/-- A page that some calls have led to. -/
def Arises (page : PageState) : Prop :=
  ∃ id src createdAt calls, page = ((new id src createdAt).performAll calls).1

/-! ## Sound pages -/

/-- A destroyed page has no components. -/
structure Gone (page : PageState) : Prop where
  destroyed : page.isDestroyed = true
  noComponents : page.components = .empty

/-- The states that a page can be in. -/
def Sound (page : PageState) : Prop :=
  page.Intact ∨ page.Gone

theorem Gone.component?_eq_none {page : PageState} (gone : page.Gone) (id : String) :
    page.component? id = none := by
  unfold component?
  rw [gone.noComponents]
  rfl

namespace Sound

variable {page : PageState}

theorem intact_of_found (sound : page.Sound) {id : String} {component : Component}
    (found : page.component? id = some component) : page.Intact := by
  rcases sound with intact | gone
  · exact intact
  · rw [gone.component?_eq_none] at found
    cases found

theorem intact_of_alive (sound : page.Sound) (alive : page.isDestroyed = false) :
    page.Intact := by
  rcases sound with intact | gone
  · exact intact
  · rw [gone.destroyed] at alive
    cases alive

theorem gone_of_destroyed (sound : page.Sound) (destroyed : page.isDestroyed = true) :
    page.Gone := by
  rcases sound with intact | gone
  · rw [intact.alive] at destroyed
    cases destroyed
  · exact gone

end Sound

theorem Gone.discard {page : PageState} (gone : page.Gone) (top : String) :
    (page.discard top).1 = page :=
  discard_of_absent (gone.component?_eq_none top)

theorem intact_new (id src : String) (createdAt : Nat) : (new id src createdAt).Intact := by
  have onlyRoot : ∀ {other component}, (new id src createdAt).component? other = some component →
      other = id ∧ component = Component.bare id "page" "Page" := by
    intro other component found
    simp only [component?, new, Dict.get?_insert] at found
    split at found
    · next isPage => exact ⟨isPage, (Option.some.inj found).symm⟩
    · cases found
  refine ⟨rfl, ⟨Component.bare id "page" "Page", ?_, rfl⟩, ?_, ?_, ?_, ?_, ?_⟩
  · simp [component?, new, Dict.get?_insert]
  · intro other component found
    obtain ⟨rfl, rfl⟩ := onlyRoot found
    rfl
  · intro other component found notPage
    exact absurd (onlyRoot found).1 notPage
  · intro other component found notPage
    exact absurd (onlyRoot found).1 notPage
  · intro number component parent found
    exact absurd (onlyRoot found).1 (numberedId_ne_page id number)
  · intro other component child found member
    rw [(onlyRoot found).2] at member
    cases member

end PageState

/-! ## One state after another -/

namespace Component

theorem SameIdentity.refl (component : Component) : component.SameIdentity component :=
  ⟨rfl, rfl, rfl, rfl⟩

theorem SameIdentity.trans {first second third : Component} (before : first.SameIdentity second)
    (after : second.SameIdentity third) : first.SameIdentity third :=
  ⟨after.tag.trans before.tag, after.widgetClass.trans before.widgetClass,
    after.parent.trans before.parent, after.arguments.trans before.arguments⟩

theorem SameFrame.sameIdentity {before after : Component} (frame : before.SameFrame after) :
    before.SameIdentity after :=
  ⟨frame.tag, frame.widgetClass, frame.parent, frame.arguments⟩

end Component

namespace PageState

/-- A page goes on from one state to another one. What has a number below the counter had it
before, and new components are announced under new numbers. -/
structure Continues (before : PageState) (emitted : List Emission) (after : PageState) : Prop where
  id_eq : after.id = before.id
  counter_le : before.nextComponent ≤ after.nextComponent
  sound : after.Sound
  ended : before.isDestroyed = true → after.isDestroyed = true
  kept : ∀ number < before.nextComponent, ∀ component,
    after.component? (numberedId before.id number) = some component →
      ∃ original, before.component? (numberedId before.id number) = some original ∧
        original.SameIdentity component
  announced : ∃ numbers : List Nat, announcedIds emitted = numbers.map (numberedId before.id) ∧
    numbers.Pairwise (· < ·) ∧
    ∀ number ∈ numbers, before.nextComponent ≤ number ∧ number < after.nextComponent

namespace Continues

theorem trans {first second third : PageState} {earlier later : List Emission}
    (before : Continues first earlier second) (after : Continues second later third) :
    Continues first (earlier ++ later) third where
  id_eq := after.id_eq.trans before.id_eq
  counter_le := Nat.le_trans before.counter_le after.counter_le
  sound := after.sound
  ended := fun destroyed => after.ended (before.ended destroyed)
  kept := by
    intro number drawn component found
    rw [← before.id_eq] at found
    obtain ⟨middle, foundMiddle, sameAfter⟩ :=
      after.kept number (Nat.lt_of_lt_of_le drawn before.counter_le) component found
    rw [before.id_eq] at foundMiddle
    obtain ⟨original, foundOriginal, sameBefore⟩ := before.kept number drawn middle foundMiddle
    exact ⟨original, foundOriginal, sameBefore.trans sameAfter⟩
  announced := by
    obtain ⟨numbers, areAnnounced, ascending, inRange⟩ := before.announced
    obtain ⟨more, areMore, moreAscending, moreInRange⟩ := after.announced
    rw [before.id_eq] at areMore
    refine ⟨numbers ++ more, ?_, ?_, ?_⟩
    · rw [announcedIds_append, areAnnounced, areMore, List.map_append]
    · refine List.pairwise_append.mpr ⟨ascending, moreAscending, ?_⟩
      intro number member other otherMember
      exact Nat.lt_of_lt_of_le (inRange number member).2 (moreInRange other otherMember).1
    · intro number member
      have counters := And.intro before.counter_le after.counter_le
      rcases List.mem_append.mp member with isEarlier | isLater
      · have range := inRange number isEarlier
        omega
      · have range := moreInRange number isLater
        omega

/-- A change that announces nothing and moves no component to a number. -/
theorem quiet {before after : PageState} {emitted : List Emission} (sound : after.Sound)
    (nothing : announcedIds emitted = []) (id_eq : after.id = before.id)
    (counter_le : before.nextComponent ≤ after.nextComponent)
    (ended : before.isDestroyed = true → after.isDestroyed = true)
    (kept : ∀ id component, after.component? id = some component →
      ∃ original, before.component? id = some original ∧ original.SameIdentity component) :
    Continues before emitted after where
  id_eq := id_eq
  counter_le := counter_le
  sound := sound
  ended := ended
  kept := fun number _ component found => kept (numberedId before.id number) component found
  announced := ⟨[], nothing, List.Pairwise.nil, fun _ member => absurd member List.not_mem_nil⟩

/-- What happens besides the components. -/
theorem of_same {before after : PageState} (sound : before.Sound) (id_eq : after.id = before.id)
    (sameComponents : after.components = before.components)
    (counter_le : before.nextComponent ≤ after.nextComponent)
    (sameEnd : after.isDestroyed = before.isDestroyed) : Continues before [] after := by
  have stillSound : after.Sound := by
    rcases sound with intact | gone
    · exact Or.inl (intact.of_same id_eq sameComponents counter_le (sameEnd.trans intact.alive))
    · exact Or.inr ⟨sameEnd.trans gone.destroyed, sameComponents.trans gone.noComponents⟩
  refine quiet stillSound rfl id_eq counter_le (fun destroyed => sameEnd.trans destroyed) ?_
  intro id component found
  unfold component? at found
  rw [sameComponents] at found
  exact ⟨component, found, .refl component⟩

theorem discard {page : PageState} (sound : page.Sound) (top : String) :
    Continues page [] (page.discard top).1 := by
  rcases sound with intact | gone
  · refine quiet (Or.inl (intact.discard top)) rfl (id_discard page top)
      (Nat.le_of_eq (nextComponent_discard page top).symm)
      (fun destroyed => (isDestroyed_discard page top).trans destroyed) ?_
    intro id left isLeft
    by_cases isPage : top = page.id
    · rw [isPage, discard_page] at isLeft
      exact ⟨left, isLeft, .refl left⟩
    · cases found : page.component? top with
      | none =>
          rw [discard_of_absent found] at isLeft
          exact ⟨left, isLeft, .refl left⟩
      | some component =>
          obtain ⟨-, original, foundOriginal, rfl⟩ := found_of_discard intact isPage found isLeft
          exact ⟨original, foundOriginal, rfl, rfl, rfl, rfl⟩
  · rw [gone.discard]
    exact of_same (Or.inr gone) rfl rfl (Nat.le_refl _) rfl

theorem discardOthers {page : PageState} (sound : page.Sound) (parent : String)
    (kept : List String) : Continues page [] (page.discardOthers parent kept) := by
  unfold PageState.discardOthers
  generalize (page.children parent).filter (fun child => !kept.contains child) = discarded
  induction discarded generalizing page with
  | nil => exact of_same sound rfl rfl (Nat.le_refl _) rfl
  | cons child rest inductionHypothesis =>
      have first := discard sound child
      exact first.trans (inductionHypothesis first.sound)

theorem destroy {page : PageState} (sound : page.Sound) : Continues page [] page.destroy := by
  unfold PageState.destroy
  split
  · exact of_same sound rfl rfl (Nat.le_refl _) rfl
  · refine quiet (Or.inr ⟨rfl, rfl⟩) rfl rfl (Nat.le_refl _) (fun _ => rfl) ?_
    intro id component found
    cases found

theorem setProperty {page next : PageState} {target name : String} {value : Property}
    {emitted : List Emission} (sound : page.Sound)
    (set : page.setProperty target name value = .ok (next, emitted)) :
    Continues page emitted next := by
  obtain ⟨alive, component, found, rfl, rfl⟩ := setProperty_eq_ok_iff.mp set
  have intact := sound.intact_of_found found
  have stillIntact : (page.replace target (component.setProperty name value)).Intact :=
    intact.replace found rfl rfl rfl
  refine quiet (Or.inl stillIntact) ?_ rfl (Nat.le_refl _) (fun destroyed => destroyed) ?_
  · unfold emit
    cases page.sink <;> simp [announcedIds, created?_update]
  · intro id other foundOther
    rw [component?_replace] at foundOther
    split at foundOther
    · next isTarget =>
        cases foundOther
        exact ⟨component, isTarget ▸ found, rfl, rfl, rfl, rfl⟩
    · exact ⟨other, foundOther, .refl other⟩

end Continues

end PageState

namespace Building

variable {tree : PageTree} {origin : PageState} {parent : String}

/-- An edit needs a live page, unless it only draws a number. -/
theorem Edit.continues {building next : Building} (edit : Edit tree origin parent building next)
    (sound : building.page.Sound) :
    ∃ told, next.emitted = building.emitted ++ told ∧ building.page.Continues told next.page := by
  have nextIntact := edit.intact
  cases edit with
  | draw => exact ⟨[], (List.append_nil _).symm, .of_same sound rfl rfl (Nat.le_succ _) rfl⟩
  | @attach place above component alive isOpen foundAbove isNew noChildren =>
      refine ⟨_, rfl, rfl, Nat.le_succ _, Or.inl (nextIntact (sound.intact_of_found foundAbove)),
        fun destroyed => destroyed, ?_, ?_⟩
      · intro number drawn other foundOther
        rw [PageState.component?_attached] at foundOther
        have notNew : numberedId building.page.id number ≠ component.id := by
          rw [isNew, PageState.nextId_eq]
          intro same
          have sameNumber := numberedId_inj.mp same
          omega
        rw [if_neg notNew] at foundOther
        split at foundOther
        · next isPlace =>
            cases foundOther
            exact ⟨above, isPlace ▸ foundAbove, rfl, rfl, rfl, rfl⟩
        · exact ⟨other, foundOther, .refl other⟩
      · have isAnnounced : announcedIds (building.page.emit (.onClient PageState.createFunction
              [.str place, (component.under place).payload])) =
            if building.page.isBound then [building.page.nextId] else [] := by
          unfold PageState.emit PageState.isBound
          cases building.page.sink with
          | none => rfl
          | some sink =>
              have hasId : (component.under place).id = building.page.nextId := isNew
              simp [announcedIds, created?_announcement, Component.textAt_payload_id, hasId]
        rw [isAnnounced]
        cases building.page.isBound with
        | false => exact ⟨[], rfl, List.Pairwise.nil, fun _ member => absurd member List.not_mem_nil⟩
        | true =>
            refine ⟨[building.page.nextComponent], rfl, List.pairwise_singleton _ _, ?_⟩
            intro number member
            rw [List.mem_singleton.mp member]
            exact ⟨Nat.le_refl _, Nat.lt_succ_self _⟩
  | @setUp definition name raw own changed isParent source foundOwn applied =>
      have frame := (Component.takesOne_of_apply applied).sameFrame
      refine ⟨_, rfl, .quiet (Or.inl (nextIntact (sound.intact_of_found foundOwn))) ?_ rfl
        (Nat.le_refl _) (fun destroyed => destroyed) ?_⟩
      · unfold PageState.told PageState.emit
        split
        · cases building.page.sink <;> simp [announcedIds, created?_update]
        · rfl
      · intro id other foundOther
        rw [PageState.component?_replace] at foundOther
        split at foundOther
        · next isPage =>
            cases foundOther
            exact ⟨own, isPage ▸ foundOwn, frame.sameIdentity⟩
        · exact ⟨other, foundOther, .refl other⟩

/-- All that is made from an unfinished page on is emitted after what was emitted before. -/
theorem Edits.continues {building next : Building} (edits : Edits tree origin parent building next)
    (sound : building.page.Sound) :
    ∃ told, next.emitted = building.emitted ++ told ∧ building.page.Continues told next.page := by
  induction edits with
  | refl => exact ⟨[], (List.append_nil _).symm, .of_same sound rfl rfl (Nat.le_refl _) rfl⟩
  | tail _ edit inductionHypothesis =>
      obtain ⟨earlier, isEarlier, before⟩ := inductionHypothesis
      obtain ⟨later, isLater, after⟩ := edit.continues before.sound
      refine ⟨earlier ++ later, ?_, before.trans after⟩
      rw [isLater, isEarlier, List.append_assoc]

end Building

namespace PageState

/-! ## Whole histories -/

theorem Continues.perform {page : PageState} (sound : page.Sound) (call : PageCall) :
    Continues page (page.perform call).2 (page.perform call).1 := by
  have same : ∀ {after : PageState}, after.id = page.id → after.components = page.components →
      page.nextComponent ≤ after.nextComponent → after.isDestroyed = page.isDestroyed →
      Continues page [] after := fun id_eq components_eq counter_le end_eq =>
    .of_same sound id_eq components_eq counter_le end_eq
  cases call with
  | materialize tree parent =>
      obtain ⟨building, edits, outcome⟩ := edits_materialize page tree parent
      obtain ⟨told, isTold, continues⟩ := edits.continues sound
      have isEmitted : building.emitted = told := isTold
      rw [← isEmitted] at continues
      rcases outcome with ⟨ids, made⟩ | ⟨error, failed⟩
      · simp only [PageState.perform, made]
        exact continues
      · simp only [PageState.perform, failed]
        have discarded := continues.trans (.discardOthers continues.sound (parent.getD page.id)
          (page.children (parent.getD page.id)))
        rwa [List.append_nil] at discarded
  | setProperty target name value =>
      cases set : page.setProperty target name value with
      | error error =>
          simp only [PageState.perform, set]
          exact same rfl rfl (Nat.le_refl _) rfl
      | ok result =>
          simp only [PageState.perform, set]
          exact .setProperty sound set
  | discard target => exact .discard sound target
  | destroy => exact .destroy sound
  | drawId => exact same rfl rfl (Nat.le_succ _) rfl
  | bind sink => exact same rfl rfl (Nat.le_refl _) rfl
  | unbind => exact same rfl rfl (Nat.le_refl _) rfl
  | queueEvent event => exact same rfl rfl (Nat.le_refl _) rfl
  | takeEvent => exact same rfl rfl (Nat.le_refl _) rfl
  | clearQueue => exact same rfl rfl (Nat.le_refl _) rfl
  | setBrowser browser => exact same rfl rfl (Nat.le_refl _) rfl
  | markInitialized => exact same rfl rfl (Nat.le_refl _) rfl

theorem Continues.performAll {page : PageState} (sound : page.Sound) (calls : List PageCall) :
    Continues page (page.performAll calls).2 (page.performAll calls).1 := by
  induction calls generalizing page with
  | nil => exact .of_same sound rfl rfl (Nat.le_refl _) rfl
  | cons call rest inductionHypothesis =>
      have first := perform sound call
      exact first.trans (inductionHypothesis first.sound)

theorem Arises.sound {page : PageState} (arises : page.Arises) : page.Sound := by
  obtain ⟨id, src, createdAt, calls, rfl⟩ := arises
  exact (Continues.performAll (Or.inl (intact_new id src createdAt)) calls).sound

/-- The components of a new page form a tree after any calls, until the page is destroyed and
stays without components. A number that was drawn at some time belongs to the same component
ever after or to none, and no id is announced twice. -/
theorem components_form_a_tree (id src : String) (createdAt : Nat) (earlier later : List PageCall) :
    let start := new id src createdAt
    let page := (start.performAll earlier).1
    let next := (start.performAll (earlier ++ later)).1
    (page.isDestroyed = false → page.IsTree) ∧
      (page.isDestroyed = true →
        page.components = .empty ∧ next.isDestroyed = true ∧ next.components = .empty) ∧
      (page.id = id ∧ page.nextComponent ≤ next.nextComponent) ∧
      (∀ number < page.nextComponent, ∀ component,
        next.component? (numberedId id number) = some component →
          ∃ original, page.component? (numberedId id number) = some original ∧
            original.SameIdentity component) ∧
      (announcedIds (start.performAll (earlier ++ later)).2).Nodup := by
  intro start page next
  have startSound : start.Sound := Or.inl (intact_new id src createdAt)
  have before : start.Continues _ page := .performAll startSound earlier
  have whole : start.Continues _ next := .performAll startSound (earlier ++ later)
  have after : page.Continues (page.performAll later).2 next := by
    have isNext : next = (page.performAll later).1 := by
      simp only [next, performAll_append]
      rfl
    rw [isNext]
    exact .performAll before.sound later
  have id_eq : page.id = id := before.id_eq
  refine ⟨?_, ?_, ⟨id_eq, after.counter_le⟩, ?_, ?_⟩
  · intro alive
    exact (before.sound.intact_of_alive alive).isTree
  · intro destroyed
    have stillDestroyed := after.ended destroyed
    exact ⟨(before.sound.gone_of_destroyed destroyed).noComponents, stillDestroyed,
      (after.sound.gone_of_destroyed stillDestroyed).noComponents⟩
  · rw [← id_eq]
    exact after.kept
  · obtain ⟨numbers, areAnnounced, ascending, -⟩ := whole.announced
    rw [areAnnounced]
    refine List.Pairwise.map _ ?_ ascending
    intro left right less same
    have sameNumber := numberedId_inj.mp same
    omega

end PageState

end LivePage
