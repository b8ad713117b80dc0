import LivePage.Proofs.Page.Announcement
import LivePage.Proofs.Server.Progress

/-!
Contract: listeners that only watch, and what happens on a session while it is queueing.

Owns:
- reactions that leave a page alone, and the listeners whose reactions do;
- invocations that are held back while a bracket is open, with nothing sent to anyone;
- what is left of lifecycle listeners and session listeners that only watch.

Does not own: what opens and closes brackets.
-/

namespace LivePage

/-! ## Watching -/

/-- A reaction that leaves the page alone, and makes only invocations that it may make. -/
def Reaction.Watches (mayMake : Invocation → Prop) : Reaction → Prop
  | .done => True
  | .fail _ => True
  | .look next => ∀ page, (next page).Watches mayMake
  | .note _ next => next.Watches mayMake
  | .invoke invocation next => mayMake invocation ∧ next.Watches mayMake
  | _ => False

/-- Whatever it is told, the listener leaves the page alone. It may make invocations that announce
no components. -/
def LifecycleListener.Watches (listener : LifecycleListener) : Prop :=
  ∀ event count,
    (listener.act event count).Watches (fun invocation => invocation.created? = none)

/-- Whatever it is told, the listener neither acts on the page nor queues events. -/
structure SessionListener.Watches (listener : SessionListener) : Prop where
  onRequest : ∀ request, (listener.onRequest request).Watches (fun _ => False)
  onInvocation : ∀ invocation, listener.onInvocation invocation = []

namespace Page

theorem echoed_of_silent {page : Page} {emissions : List Emission}
    (silent : ∀ emission ∈ emissions, page.echo emission.invocation = []) :
    page.echoed emissions = page := by
  have nothing : emissions.flatMap (fun emission => page.echo emission.invocation) = [] :=
    List.flatMap_eq_nil_iff.mpr silent
  unfold echoed PageState.queueAll
  rw [nothing, List.append_nil]
  rfl

/-- A reaction that watches leaves a page as it is, unless someone queues events about what it
invokes. -/
theorem run_of_watches {mayMake : Invocation → Prop} {reaction : Reaction}
    (watches : reaction.Watches mayMake) {page : Page}
    (silent : ∀ invocation, mayMake invocation → page.echo invocation = []) :
    (run reaction page).1 = page ∧
      ∀ emission ∈ emissionsOf (run reaction page).2.1, mayMake emission.invocation := by
  induction reaction with
  | done => exact ⟨rfl, fun _ isEmitted => absurd isEmitted List.not_mem_nil⟩
  | fail error => exact ⟨rfl, fun _ isEmitted => absurd isEmitted List.not_mem_nil⟩
  | look next inductionHypothesis => exact inductionHypothesis page.state (watches page.state)
  | note entry next inductionHypothesis => exact inductionHypothesis watches
  | invoke invocation next inductionHypothesis =>
      obtain ⟨mayBeMade, restWatches⟩ := watches
      have made : ∀ emission ∈ page.state.emit invocation, emission.invocation = invocation := by
        intro emission isEmitted
        unfold PageState.emit at isEmitted
        split at isEmitted
        · rw [List.mem_singleton.mp isEmitted]
        · cases isEmitted
      have isSame : page.echoed (page.state.emit invocation) = page :=
        echoed_of_silent (fun emission isEmitted => by
          rw [made emission isEmitted]
          exact silent invocation mayBeMade)
      obtain ⟨unchanged, others⟩ := inductionHypothesis restWatches
      unfold run
      dsimp only [after]
      rw [isSame, emissionsOf_append, emissionsOf_effectsOf]
      refine ⟨unchanged, ?_⟩
      intro emission isEmitted
      rcases List.mem_append.mp isEmitted with isFirst | isLater
      · rw [made emission isFirst]
        exact mayBeMade
      · exact others emission isLater
  | setProperty target name value next => exact watches.elim
  | queueEvent event next => exact watches.elim
  | clearQueue next => exact watches.elim
  | discard target next => exact watches.elim
  | setHandler name handler next => exact watches.elim
  | addListener target eventType listener next => exact watches.elim
  | destroy next => exact watches.elim

end Page

/-! ## Invocations that are held back -/

namespace Synchronizer

/-- A synchronizer that holds back more invocations. -/
def hold (synchronizer : Synchronizer) (held : List Invocation) : Synchronizer :=
  { synchronizer with pending := synchronizer.pending ++ held }

theorem invoke_of_isQueueing {synchronizer : Synchronizer}
    (isQueueing : synchronizer.isQueueing = true) (invocation : Invocation) :
    synchronizer.invoke invocation = (synchronizer.hold [invocation], none) :=
  if_pos isQueueing

end Synchronizer

namespace Server

variable {server : Server} {number page : Nat}

/-- A server on which a session holds back more invocations. -/
def hold (server : Server) (number : Nat) (held : List Invocation) : Server :=
  server.modifySession number (fun session =>
    session.withSynchronizer (session.synchronizer.hold held))

theorem hold_nil (server : Server) (number : Nat) : server.hold number [] = server := by
  refine modifyConnection_of_eq ?_
  show (server.connection number).withSession ((server.session number).withSynchronizer
    ⟨_, (server.session number).synchronizer.pending ++ []⟩) = _
  rw [List.append_nil]
  rfl

theorem hold_hold (server : Server) (number : Nat) (earlier later : List Invocation) :
    (server.hold number earlier).hold number later = server.hold number (earlier ++ later) := by
  unfold hold modifySession
  rw [modifyConnection_modifyConnection]
  refine modifyConnection_congr ?_
  show (server.connection number).withSession ((server.session number).withSynchronizer
    ⟨_, ((server.session number).synchronizer.pending ++ earlier) ++ later⟩) = _
  rw [List.append_assoc]
  rfl

/-- A session that is queueing. -/
structure IsQueueing (server : Server) (number : Nat) : Prop where
  known : number < server.connections.size
  isOpen : (server.session number).synchronizer.isQueueing = true

/-- A server on which a session has held back invocations, and nothing was sent to anyone. -/
structure HoldsBack (number : Nat) (before : Server) (held : List Invocation) (after : Server) :
    Prop where
  connections : after.connections = (before.hold number held).connections
  sessions : after.sessions = before.sessions
  handlers : after.handlers = before.handlers
  eventBound : after.eventBound = before.eventBound
  registered : after.pages.registered = before.pages.registered
  size : after.pages.pages.size = before.pages.pages.size
  frames : ∀ other, framesOn other after.journal = framesOn other before.journal

namespace HoldsBack

/-- Nothing happens to any session. -/
theorem of_same {before after : Server} (connections : after.connections = before.connections)
    (sessions : after.sessions = before.sessions) (handlers : after.handlers = before.handlers)
    (eventBound : after.eventBound = before.eventBound)
    (registered : after.pages.registered = before.pages.registered)
    (size : after.pages.pages.size = before.pages.pages.size)
    (frames : ∀ other, framesOn other after.journal = framesOn other before.journal) :
    HoldsBack number before [] after :=
  ⟨by rw [hold_nil, connections], sessions, handlers, eventBound, registered, size, frames⟩

theorem refl (number : Nat) (server : Server) : HoldsBack number server [] server :=
  .of_same rfl rfl rfl rfl rfl rfl (fun _ => rfl)

/-- Changes to pages are no business of the session. -/
theorem modifyPage (number : Nat) (server : Server) (page : Nat) (change : Page → Page) :
    HoldsBack number server [] (server.modifyPage page change) :=
  .of_same rfl rfl rfl rfl rfl Array.size_modify (fun _ => rfl)

theorem record (number : Nat) (server : Server) {entries : List Entry}
    (noFrames : ∀ other, framesOn other entries = []) :
    HoldsBack number server [] (server.record entries) :=
  .of_same rfl rfl rfl rfl rfl rfl (server.aside_record noFrames).frames

theorem trans {first second third : Server} {earlier later : List Invocation}
    (before : HoldsBack number first earlier second)
    (after : HoldsBack number second later third) :
    HoldsBack number first (earlier ++ later) third where
  connections := by
    rw [after.connections, ← hold_hold]
    unfold hold modifySession modifyConnection
    dsimp only
    rw [before.connections]
    rfl
  sessions := after.sessions.trans before.sessions
  handlers := after.handlers.trans before.handlers
  eventBound := after.eventBound.trans before.eventBound
  registered := after.registered.trans before.registered
  size := after.size.trans before.size
  frames other := (after.frames other).trans (before.frames other)

theorem reaches {before after : Server} {held : List Invocation}
    (holds : HoldsBack number before held after) (reaches : before.Reaches number) :
    after.Reaches number := by
  have heldReaches : (before.hold number held).Reaches number :=
    (sends_modifySession reaches _ rfl).reaches
  refine heldReaches.of_same (congrArg Array.size holds.connections) ?_ holds.sessions
  unfold Server.connection
  rw [holds.connections]

theorem session {before after : Server} {held : List Invocation}
    (holds : HoldsBack number before held after) (known : number < before.connections.size) :
    after.session number = (before.session number).withSynchronizer
      ((before.session number).synchronizer.hold held) := by
  have held := session_modifySession known (fun session =>
    session.withSynchronizer (session.synchronizer.hold held))
  rw [← held]
  unfold Server.session Server.connection
  rw [holds.connections]
  rfl

theorem isQueueing {before after : Server} {held : List Invocation}
    (holds : HoldsBack number before held after) (isQueueing : before.IsQueueing number) :
    after.IsQueueing number where
  known := by
    rw [holds.connections]
    exact Array.size_modify.symm ▸ isQueueing.known
  isOpen := by
    rw [holds.session isQueueing.known]
    exact isQueueing.isOpen

theorem pageOf {before after : Server} {held : List Invocation}
    (holds : HoldsBack number before held after) (known : number < before.connections.size) :
    after.pageOf number = before.pageOf number := by
  unfold Server.pageOf
  rw [holds.session known]
  rfl

end HoldsBack

/-! ## While a session is queueing -/

theorem release_of_isQueueing (isQueueing : server.IsQueueing number) (invocation : Invocation) :
    server.release number ((server.session number).synchronizer.invoke invocation) =
      server.hold number [invocation] := by
  rw [Synchronizer.invoke_of_isQueueing isQueueing.isOpen]
  have taken : server.modifySession number (fun session => session.withSynchronizer
      ((server.session number).synchronizer.hold [invocation])) = server.hold number [invocation] :=
    modifyConnection_congr rfl
  unfold release
  dsimp only
  rw [taken]
  exact ite_self _

/-- What a page emits to a session that is queueing is held back. -/
theorem holdsBack_deliverAll (isQueueing : server.IsQueueing number) {effects : List PageEffect}
    (addressed : ∀ emission ∈ emissionsOf effects, emission.sink = .session number) :
    HoldsBack number server ((emissionsOf effects).map Emission.invocation)
      (server.deliverAll effects) := by
  induction effects generalizing server with
  | nil => exact .refl number server
  | cons effect rest inductionHypothesis =>
      cases effect with
      | note entry =>
          have noted : HoldsBack number server [] (server.record [.note entry]) :=
            .record number server (fun _ => rfl)
          exact noted.trans (inductionHypothesis (noted.isQueueing isQueueing) addressed)
      | emission emission =>
          obtain ⟨sink, invocation⟩ := emission
          have isSink : sink = .session number := addressed _ List.mem_cons_self
          subst isSink
          have held : HoldsBack number server [invocation] (server.deliver
              (.emission ⟨.session number, invocation⟩)) := by
            rw [show server.deliver (.emission ⟨.session number, invocation⟩) =
              server.hold number [invocation] from release_of_isQueueing isQueueing invocation]
            exact ⟨rfl, rfl, rfl, rfl, rfl, rfl, fun _ => rfl⟩
          exact held.trans (inductionHypothesis (held.isQueueing isQueueing)
            (fun other isOther => addressed other (List.mem_cons_of_mem _ isOther)))

/-- Of what is held back, nobody is told. -/
theorem echo_of_isQueueing (isQueueing : server.IsQueueing number) (invocation : Invocation) :
    server.echo (some (.session number)) invocation = [] := by
  unfold echo
  dsimp only
  rw [Synchronizer.invoke_of_isQueueing isQueueing.isOpen]
  exact ite_self _

theorem echoes_of_isQueueing (isQueueing : server.IsQueueing number) {emissions : List Emission}
    (addressed : ∀ emission ∈ emissions, emission.sink = .session number) :
    server.echoes emissions = [] := by
  refine List.flatMap_eq_nil_iff.mpr (fun emission isEmitted => ?_)
  rw [addressed emission isEmitted]
  exact echo_of_isQueueing isQueueing emission.invocation

/-! ## Reactions that watch -/

theorem putBack_pageNow (server : Server) (page : Nat) :
    server.putBack page (server.pageNow page) = server := by
  have same : server.pages.put page (server.pages.page page) = server.pages := by
    have unchanged : server.pages.modify page (fun live => live) = server.pages := by
      have sameArray : server.pages.pages.modify page (fun live => live) = server.pages.pages := by
        apply Array.ext
        · exact Array.size_modify
        · intro index _ known
          rw [Array.getElem_modify]
          exact ite_self _
      unfold PageStore.modify
      rw [sameArray]
    rw [← PageStore.modify_eq_put server.pages page (fun live => live), unchanged]
  show { server with pages := server.pages.put page (server.pages.page page) } = server
  rw [same]

/-- While the session is queueing, what a watching reaction invokes is held back. -/
theorem holdsBack_reactOn {mayMake : Invocation → Prop} {reaction : Reaction}
    (isQueueing : server.IsQueueing number) (owned : server.pageOf number = some page)
    (isSink : (server.stateOf page).sink = some (.session number))
    (watches : reaction.Watches mayMake) :
    ∃ said, HoldsBack number server said (server.reactOn number reaction).1 ∧
      (server.reactOn number reaction).1.pages = server.pages ∧
      ∀ invocation ∈ said, mayMake invocation := by
  have sinkNow : (server.pageNow page).state.sink = some (.session number) := isSink
  have silent : ∀ invocation, mayMake invocation → (server.pageNow page).echo invocation = [] := by
    intro invocation _
    show server.echo (server.stateOf page).sink invocation = []
    rw [isSink]
    exact echo_of_isQueueing isQueueing invocation
  obtain ⟨unchanged, allowed⟩ := Page.run_of_watches watches silent
  have speaks := Page.speaks_run reaction (server.pageNow page)
  have addressed : ∀ emission ∈ emissionsOf (Page.run reaction (server.pageNow page)).2.1,
      emission.sink = .session number := by
    intro emission isEmitted
    have isAddressed := speaks.addressed emission isEmitted
    rw [sinkNow] at isAddressed
    exact (Option.some.inj isAddressed).symm
  have reacts : (server.reactOn number reaction).1 =
      server.deliverAll (Page.run reaction (server.pageNow page)).2.1 := by
    unfold reactOn
    rw [owned]
    dsimp only
    rw [unchanged, putBack_pageNow]
  rw [reacts]
  refine ⟨_, holdsBack_deliverAll isQueueing addressed, pages_deliverAll _ _, ?_⟩
  intro invocation isSaid
  obtain ⟨emission, isEmitted, rfl⟩ := List.mem_map.mp isSaid
  exact allowed emission isEmitted

/-- While the session is queueing, so is what watching lifecycle listeners invoke. -/
theorem holdsBack_tellAll (event : LifecycleEvent) {listeners : List LifecycleListener}
    (isQueueing : server.IsQueueing number) (owned : server.pageOf number = some page)
    (isSink : (server.stateOf page).sink = some (.session number))
    (watch : ∀ listener ∈ listeners, listener.Watches) :
    ∃ said, HoldsBack number server said (tellAll number event listeners server).1 ∧
      (tellAll number event listeners server).1.pages = server.pages ∧
      ∀ invocation ∈ said, invocation.created? = none := by
  induction listeners generalizing server with
  | nil => exact ⟨[], .refl number server, rfl, fun _ isSaid => absurd isSaid List.not_mem_nil⟩
  | cons listener rest inductionHypothesis =>
      let entry : Entry :=
        .lifecycle event listener.name (server.session number).id (server.pageIdOf number)
      have recorded : HoldsBack number server [] (server.record [entry]) :=
        .record number server (fun _ => rfl)
      obtain ⟨said, reacts, samePages, silent⟩ := holdsBack_reactOn
        (recorded.isQueueing isQueueing) owned isSink
        (watch listener List.mem_cons_self event (listener.count event))
      have told : HoldsBack number server said (tellLifecycle number event listener server) :=
        recorded.trans reacts
      have toldPages : (tellLifecycle number event listener server).pages = server.pages :=
        samePages
      unfold tellAll
      dsimp only
      cases listener.veto? event with
      | some reason => exact ⟨said, told, toldPages, silent⟩
      | none =>
          have sinkNow : ((tellLifecycle number event listener server).stateOf page).sink =
              some (.session number) := by
            rw [stateOf, toldPages]
            exact isSink
          obtain ⟨more, others, otherPages, restSilent⟩ := inductionHypothesis
            (told.isQueueing isQueueing) ((told.pageOf isQueueing.known).trans owned) sinkNow
            (fun other isOther => watch other (List.mem_cons_of_mem _ isOther))
          refine ⟨said ++ more, told.trans others, otherPages.trans toldPages, ?_⟩
          intro invocation isSaid
          exact (List.mem_append.mp isSaid).elim (silent invocation) (restSilent invocation)

/-- A watching session listener only leaves entries. -/
theorem reactOn_eq_record {reaction : Reaction} (watches : reaction.Watches (fun _ => False))
    (server : Server) (number : Nat) :
    ∃ entries, (server.reactOn number reaction).1 = server.record entries ∧
      ∀ other, framesOn other entries = [] := by
  have recorded : ∀ (effects : List PageEffect) (server : Server), emissionsOf effects = [] →
      ∃ entries, server.deliverAll effects = server.record entries ∧
        ∀ other, framesOn other entries = [] := by
    intro effects
    induction effects with
    | nil => exact fun server _ => ⟨[], (record_nil server).symm, fun _ => rfl⟩
    | cons effect rest inductionHypothesis =>
        intro server noEmissions
        cases effect with
        | note entry =>
            obtain ⟨entries, isRecord, noFrames⟩ :=
              inductionHypothesis (server.record [.note entry]) noEmissions
            refine ⟨.note entry :: entries, ?_, noFrames⟩
            exact isRecord.trans (record_record server [.note entry] entries)
        | emission emission => cases noEmissions
  unfold reactOn
  cases server.pageOf number with
  | none => exact ⟨[], (record_nil server).symm, fun _ => rfl⟩
  | some page =>
      have silent : ∀ invocation, False → (server.pageNow page).echo invocation = [] :=
        fun _ mayNot => mayNot.elim
      obtain ⟨unchanged, allowed⟩ := Page.run_of_watches watches silent
      dsimp only
      rw [unchanged, putBack_pageNow]
      exact recorded _ server (List.eq_nil_iff_forall_not_mem.mpr allowed)

theorem notifyRequest_eq_record (request : Request)
    (watch : ∀ listener ∈ (server.session request.session).listeners, listener.Watches) :
    ∃ entries, server.notifyRequest request = server.record entries ∧
      ∀ other, framesOn other entries = [] := by
  unfold notifyRequest
  generalize (server.session request.session).listeners = listeners at watch
  induction listeners generalizing server with
  | nil => exact ⟨[], (record_nil server).symm, fun _ => rfl⟩
  | cons listener rest inductionHypothesis =>
      obtain ⟨noted, isNoted, noFrames⟩ := reactOn_eq_record
        ((watch listener List.mem_cons_self).onRequest request)
        (server.record [.request listener request]) request.session
      obtain ⟨entries, isRecord, noOthers⟩ :
          ∃ entries, rest.foldl (tellRequest request) (server.tellRequest request listener) =
            (server.tellRequest request listener).record entries ∧
              ∀ other, framesOn other entries = [] :=
        inductionHypothesis (fun other isOther => watch other (List.mem_cons_of_mem _ isOther))
      refine ⟨[.request listener request] ++ noted ++ entries, ?_, ?_⟩
      · rw [← record_record, ← record_record, ← isNoted]
        exact isRecord
      · intro other
        rw [framesOn_append, framesOn_append, noFrames, noOthers]
        rfl

end Server

end LivePage
