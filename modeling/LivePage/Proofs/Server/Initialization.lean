import LivePage.Proofs.Page.Creation
import LivePage.Proofs.Server.Brackets
import LivePage.Proofs.Server.Isolation

/-!
Contract: a request for the initialization of a page.

Owns:
- what the initialization of a page comes to while its session is queueing;
- the one batch that leaves when the bracket around a success closes;
- sessions that await the initialization of their page, and how a request for it is answered.

Does not own: when an initialization fails, and what further requests come to.
-/

namespace LivePage

namespace PageState

theorem AsBefore.refl {page : PageState} (intact : page.Intact) : AsBefore page page :=
  ⟨.refl page, intact, fun _ => rfl, fun _ => rfl⟩

theorem AsBefore.trans {first second third : PageState} (before : AsBefore first second)
    (after : AsBefore second third) : AsBefore first third where
  apart := before.apart.trans after.apart
  intact := after.intact
  sameIds id := (after.sameIds id).trans (before.sameIds id)
  sameChildren id := (after.sameChildren id).trans (before.sameChildren id)

/-- What the client says about itself concerns no component. -/
theorem AsBefore.setBrowser {page : PageState} (intact : page.Intact) (browser : Dict Json) :
    AsBefore page (page.setBrowser browser) :=
  ⟨⟨rfl, rfl, rfl, rfl⟩, intact.of_same rfl rfl (Nat.le_refl _) intact.alive, fun _ => rfl,
    fun _ => rfl⟩

/-- New components are new to every page with the same tree. -/
theorem AsBefore.creates {first second third : PageState} {invocations : List Invocation}
    (same : AsBefore first second) (creates : Creates second invocations third) :
    Creates first invocations third where
  once := creates.once
  all := by
    intro id
    rw [creates.all id, ← Option.isNone_iff_eq_none, ← Option.isNone_iff_eq_none,
      ← Option.not_isSome, ← Option.not_isSome, same.sameIds id]
  hangs := creates.hangs
  parentsFirst := by
    intro earlier invocation later parent payload isSplit announces
    rw [← same.sameIds parent]
    exact creates.parentsFirst earlier invocation later parent payload isSplit announces

/-- A page on which components were made, and which is initialized now. -/
structure Initialized (origin : PageState) (invocations : List Invocation) (page : PageState) :
    Prop where
  creates : Creates origin invocations page
  intact : page.Intact
  id : page.id = origin.id
  sink : page.sink = origin.sink
  queue : page.queue = origin.queue
  isInitialized : page.isInitialized = true

end PageState

namespace Server

open PageState

variable {server : Server} {number page : Nat}

/-! ## While the session is queueing -/

theorem stateOf_modifyPage (known : page < server.pages.pages.size) (change : Page → Page) :
    (server.modifyPage page change).stateOf page = (change (server.pages.page page)).state := by
  show ((server.pages.modify page change).page page).state = _
  rw [PageStore.page_modify, if_pos ⟨rfl, known⟩]

/-- A session that is queueing, with its page, which is in order, and with lifecycle listeners that
only watch. -/
structure Opened (server : Server) (number page : Nat) : Prop where
  isQueueing : server.IsQueueing number
  owned : server.pageOf number = some page
  known : page < server.pages.pages.size
  intact : (server.stateOf page).Intact
  isSink : (server.stateOf page).sink = some (.session number)
  watch : ∀ listener ∈ server.lifecycle, listener.Watches

/-- A step on the way that leaves the page as before, and is heard by nobody. -/
structure Prepares (number page : Nat) (before after : Server) : Prop where
  holds : HoldsBack number before [] after
  lifecycle : after.lifecycle = before.lifecycle
  same : AsBefore (before.stateOf page) (after.stateOf page)

theorem Prepares.opened {after : Server} (prepares : Prepares number page server after)
    (opened : server.Opened number page) : after.Opened number page where
  isQueueing := prepares.holds.isQueueing opened.isQueueing
  owned := (prepares.holds.pageOf opened.isQueueing.known).trans opened.owned
  known := prepares.holds.size.symm ▸ opened.known
  intact := prepares.same.intact
  isSink := prepares.same.apart.sink.trans opened.isSink
  watch := prepares.lifecycle.symm ▸ opened.watch

theorem prepares_acceptBrowser (opened : server.Opened number page) {request : Request}
    {informed : Server} (accepted : server.acceptBrowser request page = .ok informed) :
    Prepares number page server informed := by
  unfold acceptBrowser at accepted
  split at accepted
  · cases accepted
  · cases accepted
    exact ⟨.refl number server, rfl, .refl opened.intact⟩
  · cases accepted
    refine ⟨.modifyPage number server page _, rfl, ?_⟩
    rw [stateOf_modifyPage opened.known]
    exact .setBrowser opened.intact _

theorem prepares_loadBlueprint (opened : server.Opened number page) :
    Prepares number page server (server.loadBlueprint page).1 := by
  have read (cache : BlueprintCache) : Prepares number page server { server with cache := cache } :=
    ⟨.of_same rfl rfl rfl rfl rfl rfl (fun _ => rfl), rfl, .refl opened.intact⟩
  unfold loadBlueprint
  dsimp only
  split
  · exact read _
  · exact read _

theorem lifecycle_deliverAll (server : Server) (effects : List PageEffect) :
    (server.deliverAll effects).lifecycle = server.lifecycle := by
  induction effects generalizing server with
  | nil => rfl
  | cons effect rest inductionHypothesis =>
      have first : (server.deliver effect).lifecycle = server.lifecycle := by
        match effect with
        | .note _ => rfl
        | .emission ⟨.observer, _⟩ => rfl
        | .emission ⟨.session target, invocation⟩ =>
            obtain ⟨entries, released, -⟩ := release_eq_record server target
              ((server.session target).synchronizer.invoke invocation)
            show (server.release target _).lifecycle = _
            rw [released]
            rfl
      exact (inductionHypothesis (server.deliver effect)).trans first

/-- What is emitted while components are made is held back, and nobody queues events about it. -/
theorem holdsBack_materialize (opened : server.Opened number page) (blueprint : Blueprint) :
    let building := ((server.stateOf page).materialize blueprint.tree none).1
    let made := (server.materialize page blueprint).1
    HoldsBack number server (building.emitted.map Emission.invocation) made ∧
      made.lifecycle = server.lifecycle ∧ made.stateOf page = building.page := by
  intro building made
  obtain ⟨-, addressed⟩ := (server.stateOf page).speaks_materialize blueprint.tree none
  have toSession : ∀ emission ∈ building.emitted, emission.sink = .session number := by
    intro emission isEmitted
    have isAddressed := addressed emission isEmitted
    rw [opened.isSink] at isAddressed
    exact (Option.some.inj isAddressed).symm
  have nothingQueued : building.page.queueAll (server.echoes building.emitted) = building.page := by
    unfold PageState.queueAll
    rw [echoes_of_isQueueing opened.isQueueing toSession, List.append_nil]
  let live := (server.pages.page page).withState building.page
  have isMade : made =
      (server.putPage page live).deliverAll (Page.effectsOf building.emitted) :=
    congrArg (fun state => (server.putPage page ((server.pages.page page).withState
      state)).deliverAll (Page.effectsOf building.emitted)) nothingQueued
  have put : HoldsBack number server [] (server.putPage page live) :=
    .of_same rfl rfl rfl rfl rfl Array.size_modify (fun _ => rfl)
  have delivered := holdsBack_deliverAll (put.isQueueing opened.isQueueing)
    (emissionsOf_effectsOf building.emitted ▸ toSession)
  rw [emissionsOf_effectsOf] at delivered
  rw [isMade]
  refine ⟨put.trans delivered, lifecycle_deliverAll _ _, ?_⟩
  rw [stateOf, pages_deliverAll]
  show ((server.pages.put page live).page page).state = _
  rw [PageStore.page_put, if_pos ⟨rfl, opened.known⟩]
  rfl

/-- What becomes of a page whose initialization was tried: it is as before after a failure. -/
structure Tries (number page : Nat) (before : Server) (held : List Invocation)
    (outcome : Except (List String) Unit) (after : Server) : Prop where
  holds : HoldsBack number before held after
  failed : ∀ chain, outcome = .error chain →
    AsBefore (before.stateOf page) (after.stateOf page)
  made : outcome = .ok () → Initialized (before.stateOf page) held (after.stateOf page)

theorem Prepares.tries_error {after : Server} {chain : List String}
    (prepares : Prepares number page server after) :
    Tries number page server [] (.error chain) after :=
  ⟨prepares.holds, fun _ _ => prepares.same, nofun⟩

theorem Prepares.tries {middle after : Server} {held : List Invocation}
    {outcome : Except (List String) Unit} (prepares : Prepares number page server middle)
    (tries : Tries number page middle held outcome after) :
    Tries number page server held outcome after where
  holds := prepares.holds.trans tries.holds
  failed chain isError := prepares.same.trans (tries.failed chain isError)
  made isOk := by
    have made := tries.made isOk
    have apart := prepares.same.apart
    exact ⟨prepares.same.creates made.creates, made.intact, made.id.trans apart.id,
      made.sink.trans apart.sink, made.queue.trans apart.queue, made.isInitialized⟩

/-- After the lifecycle listeners, the page is initialized, or the components that were made for it
are discarded. -/
theorem holdsBack_offer (opened : server.Opened number page) (ids : List String) :
    ∃ said, (∀ invocation ∈ said, invocation.created? = none) ∧
      HoldsBack number server said (server.offer number page ids).1 ∧
      (((server.offer number page ids).2 = .ok () ∧
          (server.offer number page ids).1.stateOf page =
            (server.stateOf page).markInitialized) ∨
        ∃ chain, (server.offer number page ids).2 = .error chain ∧
          (server.offer number page ids).1.stateOf page =
            ids.foldl (fun state id => (state.discard id).1) (server.stateOf page)) := by
  obtain ⟨said, told, samePages, silent⟩ := holdsBack_tellAll .created opened.isQueueing
    opened.owned opened.isSink opened.watch
  have notified : HoldsBack number server said (server.notifyLifecycle number .created).1 := by
    have left : HoldsBack number (tellAll number .created server.lifecycle server).1 []
        (server.notifyLifecycle number .created).1 :=
      .of_same rfl rfl rfl rfl rfl rfl (fun _ => rfl)
    have all := told.trans left
    rwa [List.append_nil] at all
  have sameStore : (server.notifyLifecycle number .created).1.pages = server.pages := samePages
  unfold offer
  rcases outcome : server.notifyLifecycle number .created with ⟨next, veto⟩
  rw [outcome] at notified sameStore
  have known : page < next.pages.pages.size := notified.size.symm ▸ opened.known
  have sameState : next.stateOf page = server.stateOf page :=
    congrArg (fun pages => (pages.page page).state) sameStore
  have changes (change : Page → Page) :
      HoldsBack number server said (next.modifyPage page change) := by
    have all := notified.trans (.modifyPage number next page change)
    rwa [List.append_nil] at all
  refine ⟨said, silent, ?_⟩
  cases veto with
  | none =>
      refine ⟨changes _, .inl ⟨rfl, ?_⟩⟩
      dsimp only
      rw [stateOf_modifyPage known]
      exact congrArg PageState.markInitialized sameState
  | some reason =>
      refine ⟨changes _, .inr ⟨_, rfl, ?_⟩⟩
      dsimp only
      rw [stateOf_modifyPage known]
      exact congrArg (fun state => ids.foldl (fun state id => (PageState.discard state id).1) state)
        sameState

/-- Components that cannot be made are taken back. -/
theorem tries_of_materialize_error (opened : server.Opened number page) {blueprint : Blueprint}
    {made : Server} {chain : List String}
    (failed : server.materialize page blueprint = (made, .error chain)) :
    ∃ held, Tries number page server held (.error chain) made := by
  have delivered := holdsBack_materialize opened blueprint
  rcases outcome : (server.stateOf page).materialize blueprint.tree none with ⟨building, error | ids⟩
  · rw [failed, outcome] at delivered
    obtain ⟨held, -, isState⟩ := delivered
    refine ⟨_, held, fun _ _ => ?_, nofun⟩
    rw [isState]
    exact asBefore_of_error opened.intact outcome
  · have succeeds : (server.materialize page blueprint).2 = .ok ids := by
      show (((server.stateOf page).materialize blueprint.tree none).2).mapError _ = _
      rw [outcome]
      rfl
    rw [failed] at succeeds
    cases succeeds

/-- Components that were made are offered to the lifecycle listeners, and discarded after a veto. -/
theorem tries_of_materialize_ok (opened : server.Opened number page) {blueprint : Blueprint}
    {made : Server} {ids : List String}
    (succeeds : server.materialize page blueprint = (made, .ok ids)) :
    ∃ held, Tries number page server held (made.offer number page ids).2
      (made.offer number page ids).1 := by
  have delivered := holdsBack_materialize opened blueprint
  rcases outcome : (server.stateOf page).materialize blueprint.tree none
    with ⟨building, error | others⟩
  · have fails : (server.materialize page blueprint).2 = .error [error.message] := by
      show (((server.stateOf page).materialize blueprint.tree none).2).mapError _ = _
      rw [outcome]
      rfl
    rw [succeeds] at fails
    cases fails
  · have sameIds : (server.materialize page blueprint).2 = .ok others := by
      show (((server.stateOf page).materialize blueprint.tree none).2).mapError _ = _
      rw [outcome]
      rfl
    rw [succeeds] at sameIds
    cases sameIds
    rw [succeeds, outcome] at delivered
    obtain ⟨held, sameLifecycle, isState⟩ := delivered
    have madeOn := madeOn_of_ok opened.intact outcome
    have madeOpened : made.Opened number page :=
      { isQueueing := held.isQueueing opened.isQueueing
        owned := (held.pageOf opened.isQueueing.known).trans opened.owned
        known := held.size.symm ▸ opened.known
        intact := isState ▸ madeOn.intact
        isSink := by
          rw [isState]
          exact madeOn.apart.sink.trans opened.isSink
        watch := sameLifecycle.symm ▸ opened.watch }
    have isBound : (server.stateOf page).isBound = true := by
      rw [PageState.isBound, opened.isSink]
      rfl
    obtain ⟨said, silent, offered, ⟨isOk, isMarked⟩ | ⟨chain, isError, isLeft⟩⟩ :=
      holdsBack_offer madeOpened ids
    · refine ⟨_, held.trans offered, fun chain isError => ?_, fun _ => ?_⟩
      · rw [isOk] at isError
        cases isError
      · rw [isMarked, isState]
        have creates := (madeOn.creates isBound).append_silent silent
        exact ⟨creates.of_same (fun _ => rfl),
          madeOn.intact.of_same rfl rfl (Nat.le_refl _) madeOn.intact.alive, madeOn.apart.id,
          madeOn.apart.sink, madeOn.apart.queue, rfl⟩
    · refine ⟨_, held.trans offered, fun _ _ => ?_, fun isOk => ?_⟩
      · rw [isLeft, isState]
        exact madeOn.discarded
      · rw [isError] at isOk
        cases isOk

/-- Whatever comes of an initialization, its invocations are held back, and a failure leaves the
page as before. -/
theorem tries_initializePage (opened : server.Opened number page) {request : Request}
    (isSession : request.session = number) :
    ∃ held, Tries number page server held (server.initializePage request).2
      (server.initializePage request).1 := by
  have start : Prepares number page server server := ⟨.refl number server, rfl, .refl opened.intact⟩
  unfold initializePage requirePage
  rw [isSession, opened.owned]
  dsimp only
  by_cases isDone : (server.pages.page page).state.isInitialized = true
  · rw [if_pos isDone]
    exact ⟨[], start.holds, nofun, fun _ =>
      ⟨.nothing _, opened.intact, rfl, rfl, rfl, isDone⟩⟩
  · rw [if_neg isDone]
    cases accepted : server.acceptBrowser request page with
    | error error => exact ⟨[], start.tries_error⟩
    | ok informed =>
        have first := prepares_acceptBrowser opened accepted
        have informedOpened := first.opened opened
        have second := prepares_loadBlueprint informedOpened
        dsimp only
        rcases loaded : informed.loadBlueprint page with ⟨next, chain | blueprint⟩
        · rw [loaded] at second
          exact ⟨[], first.tries second.tries_error⟩
        · rw [loaded] at second
          have nextOpened := second.opened informedOpened
          dsimp only
          rcases outcome : next.materialize page blueprint with ⟨made, chain | ids⟩
          · obtain ⟨held, tries⟩ := tries_of_materialize_error nextOpened outcome
            exact ⟨held, first.tries (second.tries tries)⟩
          · obtain ⟨held, tries⟩ := tries_of_materialize_ok nextOpened outcome
            exact ⟨held, first.tries (second.tries tries)⟩

/-! ## The bracket around an initialization -/

theorem answers_of_watches
    (watch : ∀ listener ∈ (server.session number).listeners, listener.Watches)
    (frame : Option Frame) : server.answers number frame = [] := by
  have nothing : (frame.toList.flatMap Frame.invocations).flatMap (fun invocation =>
      (server.session number).listeners.flatMap (fun listener =>
        listener.onInvocation invocation)) = [] :=
    List.flatMap_eq_nil_iff.mpr (fun invocation _ =>
      List.flatMap_eq_nil_iff.mpr (fun listener isListener =>
        (watch listener isListener).onInvocation invocation))
  unfold answers
  rw [nothing]
  exact ite_self _

theorem queueOn_nil (server : Server) (number : Nat) : server.queueOn number [] = server := by
  unfold queueOn modifyPageOf
  cases server.pageOf number with
  | none => rfl
  | some page =>
      have same : (fun live : Page => live.withState (live.state.queueAll [])) = fun live => live := by
        funext live
        unfold PageState.queueAll
        rw [List.append_nil]
        rfl
      have back := server.putBack_pageNow page
      dsimp only
      rw [same]
      unfold modifyPage
      rw [PageStore.modify_eq_put]
      exact back

/-- What a session is asked leaves it as it was, with these frames sent and no others. -/
structure Leaves (number : Nat) (before : Server) (frames : List Frame) (after : Server) : Prop where
  reaches : after.Reaches number
  session : after.session number = before.session number
  handlers : after.handlers = before.handlers
  eventBound : after.eventBound = before.eventBound
  registered : after.pages.registered = before.pages.registered
  size : after.pages.pages.size = before.pages.pages.size
  frames : framesOn number after.journal = framesOn number before.journal ++ frames
  elsewhere : ∀ other, other ≠ number →
    framesOn other after.journal = framesOn other before.journal

/-- The last bracket closes, with nobody to answer. -/
theorem stopQueueing_of_watches (reaches : server.Reaches number)
    (watch : ∀ listener ∈ (server.session number).listeners, listener.Watches)
    (isLast : (server.session number).synchronizer.depth = 1) :
    server.Sends number .new
        (Frame.ofBatch? (server.session number).synchronizer.pending).toList
        (server.stopQueueing number) ∧
      ∃ entries, server.stopQueueing number = (server.modifySession number (fun session =>
          session.withSynchronizer .new)).record entries ∧
        ∀ other, other ≠ number → framesOn other entries = [] := by
  have step : (server.session number).synchronizer.stop =
      (.new, Frame.ofBatch? (server.session number).synchronizer.pending) := by
    unfold Synchronizer.stop
    rw [isLast]
    rfl
  have stops : server.stopQueueing number = server.release number
      (.new, Frame.ofBatch? (server.session number).synchronizer.pending) := by
    unfold stopQueueing releaseHeard
    rw [step, answers_of_watches watch, queueOn_nil]
  rw [stops]
  exact ⟨sends_release reaches (.new, Frame.ofBatch? _), release_eq_record server number _⟩

/-- A server on which a session that held back nothing has opened one bracket, and holds back these
invocations now. -/
structure Within (number : Nat) (before : Server) (held : List Invocation) (after : Server) :
    Prop where
  reaches : after.Reaches number
  session : after.session number = (before.session number).withSynchronizer ⟨1, held⟩
  handlers : after.handlers = before.handlers
  eventBound : after.eventBound = before.eventBound
  registered : after.pages.registered = before.pages.registered
  size : after.pages.pages.size = before.pages.pages.size
  frames : ∀ other, framesOn other after.journal = framesOn other before.journal

/-- A session that holds nothing back opens a bracket. -/
theorem sends_startQueueing (reaches : server.Reaches number)
    (isNew : (server.session number).synchronizer = .new) :
    server.Sends number ⟨1, []⟩ [] (server.startQueueing number) := by
  refine sends_modifySession reaches _ ?_
  show (server.session number).withSynchronizer ((server.session number).synchronizer.start) = _
  rw [isNew]
  rfl

theorem within_of_holdsBack (reaches : server.Reaches number)
    (isNew : (server.session number).synchronizer = .new) {held : List Invocation} {next : Server}
    (holds : HoldsBack number (server.startQueueing number) held next) :
    Within number server held next := by
  have started := sends_startQueueing reaches isNew
  refine ⟨holds.reaches started.reaches, ?_, holds.handlers, holds.eventBound, holds.registered,
    holds.size, holds.frames⟩
  rw [holds.session started.reaches.known, started.session]
  rfl

theorem Within.clear {next : Server} {held : List Invocation}
    (within : Within number server held next) :
    Within number server [] (next.clearQueued number) := by
  have cleared : next.Sends number ⟨1, []⟩ [] (next.clearQueued number) := by
    refine sends_modifySession within.reaches _ ?_
    show (next.session number).withSynchronizer ((next.session number).synchronizer.clear) = _
    rw [within.session]
    rfl
  refine ⟨cleared.reaches, ?_, within.handlers, within.eventBound, within.registered, within.size,
    within.frames⟩
  rw [cleared.session, within.session]
  rfl

/-- With the bracket closed again, the session is as it was. -/
theorem Within.leaves {next : Server} {held : List Invocation}
    (within : Within number server held next)
    (isNew : (server.session number).synchronizer = .new)
    (watch : ∀ listener ∈ (server.session number).listeners, listener.Watches) :
    Leaves number server (Frame.ofBatch? held).toList (next.stopQueueing number) ∧
      ∀ page, (next.stopQueueing number).stateOf page = next.stateOf page := by
  obtain ⟨sends, entries, isRecord, elsewhere⟩ := stopQueueing_of_watches within.reaches
    (within.session.symm ▸ watch) (by rw [within.session]; rfl)
  have journal : (next.stopQueueing number).journal = next.journal ++ entries := by
    rw [isRecord]
    rfl
  refine ⟨⟨sends.reaches, ?_, ?_, ?_, ?_, ?_, ?_, ?_⟩, ?_⟩
  · rw [sends.session, within.session]
    show (server.session number).withSynchronizer .new = _
    rw [← isNew]
    rfl
  · rw [isRecord]
    exact within.handlers
  · rw [isRecord]
    exact within.eventBound
  · rw [isRecord]
    exact within.registered
  · rw [isRecord]
    exact within.size
  · rw [sends.journal, framesOn_append, framesOn_frameEntries, within.frames, within.session]
    rfl
  · intro other different
    rw [journal, framesOn_append, elsewhere other different, List.append_nil]
    exact within.frames other
  · intro page
    rw [isRecord]
    rfl

/-! ## Requests for initialization -/

/-- A session with an open socket that holds nothing back, with its page, which is in order, or one
that it may claim. Those who listen to it only watch. -/
structure Awaits (server : Server) (number page : Nat) : Prop where
  reaches : server.Reaches number
  numbered : (server.session number).number = number
  settled : (server.session number).synchronizer = .new
  watch : ∀ listener ∈ (server.session number).listeners, listener.Watches
  handler : server.handlers.get? RequestHandler.init.requestType = some .init
  bounded : 0 < server.eventBound
  known : page < server.pages.pages.size
  intact : (server.stateOf page).Intact
  quiet : (server.stateOf page).queue = []
  isSink : server.pageOf number = some page →
    (server.stateOf page).sink = some (.session number)
  claims : server.pageOf number = some page ∨
    (server.session number).phase = .created ∧
      server.pages.get? (server.stateOf page).id = some page

/-- With the bracket open, the session is queueing. -/
theorem Awaits.opened (awaits : server.Awaits number page)
    (owned : server.pageOf number = some page)
    (watch : ∀ listener ∈ server.lifecycle, listener.Watches) :
    (server.startQueueing number).Opened number page := by
  have started := sends_startQueueing awaits.reaches awaits.settled
  exact
    { isQueueing := ⟨started.reaches.known, by rw [started.session]; rfl⟩
      owned := by
        rw [Server.pageOf, started.session]
        exact owned
      known := awaits.known
      intact := awaits.intact
      isSink := awaits.isSink owned
      watch := watch }

/-- What is left of a session that awaits initialization, with a page in order. -/
theorem Leaves.awaits {after : Server} {frames : List Frame}
    (leaves : Leaves number server frames after) (awaits : server.Awaits number page)
    (owned : server.pageOf number = some page) (intact : (after.stateOf page).Intact)
    (quiet : (after.stateOf page).queue = [])
    (isSink : (after.stateOf page).sink = some (.session number)) : after.Awaits number page where
  reaches := leaves.reaches
  numbered := leaves.session ▸ awaits.numbered
  settled := leaves.session ▸ awaits.settled
  watch := leaves.session ▸ awaits.watch
  handler := leaves.handlers ▸ awaits.handler
  bounded := leaves.eventBound ▸ awaits.bounded
  known := leaves.size ▸ awaits.known
  intact := intact
  quiet := quiet
  isSink _ := isSink
  claims := .inl (by
    rw [Server.pageOf, leaves.session]
    exact owned)

/-- What becomes of a session and its page when an initialization is asked for. A failure is heard
by nobody yet. -/
structure Answers (number page : Nat) (before : Server) (outcome : Except (List String) Unit)
    (after : Server) : Prop where
  failed : ∀ chain, outcome = .error chain →
    Leaves number before [] after ∧ AsBefore (before.stateOf page) (after.stateOf page)
  made : outcome = .ok () →
    ∃ invocations, Leaves number before (Frame.ofBatch? invocations).toList after ∧
      Initialized (before.stateOf page) invocations (after.stateOf page)

theorem answers_handleInit (awaits : server.Awaits number page)
    (owned : server.pageOf number = some page)
    (watch : ∀ listener ∈ server.lifecycle, listener.Watches) {request : Request}
    (isSession : request.session = number) :
    Answers number page server (server.handleInit request).2 (server.handleInit request).1 := by
  obtain ⟨held, tries⟩ := tries_initializePage (awaits.opened owned watch) isSession
  unfold handleInit
  rw [isSession]
  rcases outcome : (server.startQueueing number).initializePage request with ⟨next, chain | _⟩
  · rw [outcome] at tries
    dsimp only at tries
    have within := within_of_holdsBack awaits.reaches awaits.settled tries.holds
    obtain ⟨leaves, sameStates⟩ := within.clear.leaves awaits.settled awaits.watch
    have asBefore := tries.failed chain rfl
    refine ⟨fun _ _ => ⟨leaves, ?_⟩, nofun⟩
    dsimp only
    rw [sameStates]
    exact asBefore
  · rw [outcome] at tries
    dsimp only at tries
    have within := within_of_holdsBack awaits.reaches awaits.settled tries.holds
    obtain ⟨leaves, sameStates⟩ := within.leaves awaits.settled awaits.watch
    have initialized := tries.made rfl
    refine ⟨nofun, fun _ => ⟨held, leaves, ?_⟩⟩
    dsimp only
    rw [sameStates]
    exact initialized

/-- Nothing is dispatched from an empty queue. -/
theorem drainPageOf_of_quiet (owned : server.pageOf number = some page)
    (bounded : 0 < server.eventBound) (quiet : (server.stateOf page).queue = []) :
    server.drainPageOf number = (server, .ok ()) := by
  have nothing : (server.pageNow page).takeEvent? = none := by
    have isEmpty : (server.pageNow page).state.queue = [] := quiet
    unfold Page.takeEvent?
    rw [isEmpty]
  obtain ⟨bound, isBound⟩ := Nat.exists_eq_succ_of_ne_zero (Nat.ne_of_gt bounded)
  unfold drainPageOf
  rw [owned, isBound]
  dsimp only [Page.drain]
  rw [nothing]
  exact congrArg (·, Except.ok ()) (server.putBack_pageNow page)

/-- Entries that are no frames make no difference. -/
theorem Leaves.record {after : Server} {frames : List Frame}
    (leaves : Leaves number server frames after) {entries : List Entry}
    (noFrames : ∀ other, framesOn other entries = []) :
    Leaves number server frames (after.record entries) where
  reaches := leaves.reaches.of_same rfl rfl rfl
  session := leaves.session
  handlers := leaves.handlers
  eventBound := leaves.eventBound
  registered := leaves.registered
  size := leaves.size
  frames := by
    show framesOn number (after.journal ++ entries) = _
    rw [framesOn_append, noFrames, List.append_nil]
    exact leaves.frames
  elsewhere other different := by
    show framesOn other (after.journal ++ entries) = _
    rw [framesOn_append, noFrames, List.append_nil]
    exact leaves.elsewhere other different

/-- Listeners that watch, and an empty queue, add nothing to what the handler did. -/
theorem answers_serve (awaits : server.Awaits number page)
    (owned : server.pageOf number = some page)
    (watch : ∀ listener ∈ server.lifecycle, listener.Watches) {request : Request}
    (isSession : request.session = number) :
    Answers number page server (server.serve .init request).2 (server.serve .init request).1 := by
  have handled := answers_handleInit awaits owned watch isSession
  unfold serve
  rw [show server.handle .init request = server.handleInit request from rfl]
  rcases outcome : server.handleInit request with ⟨next, chain | _⟩
  · rw [outcome] at handled
    exact handled
  · rw [outcome] at handled
    dsimp only at handled
    obtain ⟨invocations, leaves, initialized⟩ := handled.made rfl
    have listenersWatch : ∀ listener ∈ (next.session request.session).listeners,
        listener.Watches := by
      rw [isSession, leaves.session]
      exact awaits.watch
    obtain ⟨entries, isRecord, noFrames⟩ := notifyRequest_eq_record request listenersWatch
    have notified := leaves.record noFrames
    have stillOwned : (next.record entries).pageOf number = some page := by
      rw [Server.pageOf, notified.session]
      exact owned
    have quiet : ((next.record entries).stateOf page).queue = [] :=
      initialized.queue.trans awaits.quiet
    dsimp only
    rw [isRecord, isSession,
      drainPageOf_of_quiet stillOwned (notified.eventBound.symm ▸ awaits.bounded) quiet]
    refine ⟨fun chain isError => ?_, fun _ => ⟨invocations, notified, initialized⟩⟩
    cases isError

/-! ## The session and its page -/

theorem phase_of_pageOf (owned : server.pageOf number = some page) :
    (server.session number).phase = .initialized page := by
  unfold Server.pageOf Session.page? at owned
  cases isPhase : (server.session number).phase with
  | created =>
      rw [isPhase] at owned
      cases owned
  | initialized other =>
      rw [isPhase] at owned
      cases owned
      rfl
  | destroyed =>
      rw [isPhase] at owned
      cases owned

/-- A server on which a session has its page, which it had or has claimed just now. -/
structure Owns (number page : Nat) (before after : Server) : Prop where
  awaits : after.Awaits number page
  owned : after.pageOf number = some page
  state : after.stateOf page = (before.stateOf page).bind (.session number)
  journal : after.journal = before.journal

theorem owns_initSession (awaits : server.Awaits number page) {pid : String}
    (isPid : (server.stateOf page).id = pid) :
    ∃ bound isFirst, server.initSession number pid = .ok (bound, isFirst) ∧
      Owns number page server bound ∧ bound.lifecycle = server.lifecycle ∧
        (server.pageOf number = some page → bound = server) := by
  rcases awaits.claims with owned | ⟨isCreated, isRegistered⟩
  · have sameState : (server.stateOf page).bind (.session number) = server.stateOf page := by
      unfold PageState.bind
      rw [← awaits.isSink owned]
    have answer := initSession_of_initialized (phase_of_pageOf owned) pid
    rw [show (server.pages.page page).id = pid from isPid, if_pos rfl] at answer
    exact ⟨server, false, answer, ⟨awaits, owned, sameState.symm, rfl⟩, rfl, fun _ => rfl⟩
  · rw [isPid] at isRegistered
    have isSession : (server.claimPage number page).session number =
        { server.session number with phase := .initialized page } :=
      congrArg Connection.session (connection_claimPage awaits.reaches.known page)
    have state : (server.claimPage number page).stateOf page =
        (server.stateOf page).bind (.session number) := by
      show ((server.pages.bind page _).page page).state = _
      rw [PageStore.page_bind, if_pos ⟨rfl, awaits.known⟩,
        show (server.connection number).session.number = number from awaits.numbered]
      rfl
    have owned : (server.claimPage number page).pageOf number = some page := by
      rw [Server.pageOf, isSession]
      rfl
    refine ⟨_, true, initSession_of_registered isCreated isRegistered, ⟨?_, owned, state, rfl⟩, rfl,
      ?_⟩
    · exact
        { reaches := awaits.reaches.claimPage page
          numbered := by rw [isSession]; exact awaits.numbered
          settled := by rw [isSession]; exact awaits.settled
          watch := by rw [isSession]; exact awaits.watch
          handler := awaits.handler
          bounded := awaits.bounded
          known := (PageStore.size_bind server.pages page _).symm ▸ awaits.known
          intact := by
            rw [state]
            exact awaits.intact.of_same rfl rfl (Nat.le_refl _) awaits.intact.alive
          quiet := by
            rw [state]
            exact awaits.quiet
          isSink := fun _ => by
            rw [state]
            rfl
          claims := .inl owned }
    · intro hadPage
      rw [Server.pageOf, Session.page?, isCreated] at hadPage
      cases hadPage

/-- What is served as the current request, as those see it who only ask for frames. -/
theorem Leaves.alone {request : Request} {after : Server} {frames : List Frame}
    (leaves : Leaves number { server with current := some request } frames after) :
    Leaves number server frames { after with current := none } :=
  ⟨leaves.reaches.of_same rfl rfl rfl, leaves.session, leaves.handlers, leaves.eventBound,
    leaves.registered, leaves.size, leaves.frames, leaves.elsewhere⟩

/-- A request for the initialization of the page of a session is answered. -/
theorem answers_attempt (awaits : server.Awaits number page)
    (watch : ∀ listener ∈ server.lifecycle, listener.Watches) {request : Request}
    (isSession : request.session = number) (isPid : (server.stateOf page).id = request.pid)
    (isInit : request.requestType = RequestHandler.init.requestType) :
    ∃ bound, Owns number page server bound ∧
      Answers number page bound (server.attempt request).2 (server.attempt request).1 ∧
      (server.attempt request).1.current = none := by
  obtain ⟨bound, isFirst, isBound, owns, sameLifecycle, -⟩ := owns_initSession awaits isPid
  let entered : Server := { bound with current := some request }
  have enteredAwaits : entered.Awaits number page :=
    { owns.awaits with reaches := owns.awaits.reaches.of_same rfl rfl rfl }
  have served : Answers number page entered (entered.serve .init request).2
      (entered.serve .init request).1 :=
    answers_serve enteredAwaits owns.owned (sameLifecycle.symm ▸ watch) isSession
  have isAttempt : server.attempt request =
      ({ (entered.serve .init request).1 with current := none },
        (entered.serve .init request).2) := by
    unfold attempt
    rw [isSession, isBound]
    dsimp only
    rw [isInit, owns.awaits.handler]
    rfl
  rw [isAttempt]
  generalize entered.serve .init request = result at served
  refine ⟨bound, owns, ⟨fun chain isError => ?_, fun isOk => ?_⟩, rfl⟩
  · obtain ⟨leaves, asBefore⟩ := served.failed chain isError
    exact ⟨leaves.alone, asBefore⟩
  · obtain ⟨invocations, leaves, initialized⟩ := served.made isOk
    exact ⟨invocations, leaves.alone, initialized⟩

end Server

end LivePage
