import LivePage.Proofs.Server.Deeds

/-!
Contract: the deeds of a request.

Owns:
- the deeds of each part of serving a request, read off what its handlers do;
- each part is done by acts with just these deeds;
- handlers that do not end the session, and whose deeds do not either.

Does not own: what acts come to.
-/

namespace LivePage

/-! ## Handlers that leave the session alive -/

/-- A conduct that never ends the session. -/
def Conduct.Spares : Conduct → Prop
  | .done => True
  | .fail _ => True
  | .look next => ∀ view, (next view).Spares
  | .note _ next => next.Spares
  | .queueEvent _ next => next.Spares
  | .invoke _ next => next.Spares
  | .react _ next => ∀ answer, (next answer).Spares
  | .startQueueing next => next.Spares
  | .stopQueueing next => next.Spares
  | .clearQueued next => next.Spares
  | .destroySession _ => False
  | .reenter next => next.Spares

def RequestHandler.Spares : RequestHandler → Prop
  | .custom _ respond => ∀ request, (respond request).Spares
  | _ => True

namespace Server

variable {server : Server} {number : Nat}

/-! ## What is done to a page -/

/-- The deeds of queueing events on the page of a session. -/
def queueDeeds (server : Server) (number : Nat) (events : List Event) : List Deed :=
  match server.pageOf number with
  | none => []
  | some _ => Deed.queueAll events

theorem endSession_not_mem_queueDeeds (server : Server) (number : Nat) (events : List Event) :
    .endSession ∉ server.queueDeeds number events := by
  unfold queueDeeds
  split
  · exact List.not_mem_nil
  · exact Deed.endSession_not_mem_queue _

theorem acts_queueOn (server : Server) (events : List Event) :
    Acts number server (server.queueDeeds number events) (server.queueOn number events) := by
  unfold queueDeeds queueOn modifyPageOf
  cases owned : server.pageOf number with
  | none => exact .refl server
  | some page =>
      exact acts_modifyPage owned (fun live =>
        (Page.Follows.of_same (.refl live.state) rfl).queueAll events)

/-- The deeds of an invocation on the page of a session. -/
def invokeDeeds (server : Server) (number : Nat) (invocation : Invocation) : List Deed :=
  match server.pageOf number with
  | none => []
  | some page =>
      let emissions := (server.pages.page page).state.emit invocation
      server.queueDeeds number (server.echoes emissions) ++
        Deed.ofEffects (Page.effectsOf emissions)

theorem endSession_not_mem_invokeDeeds (server : Server) (number : Nat) (invocation : Invocation) :
    .endSession ∉ server.invokeDeeds number invocation := by
  unfold invokeDeeds
  split
  · exact List.not_mem_nil
  · rw [List.mem_append, not_or]
    exact ⟨endSession_not_mem_queueDeeds _ _ _, Deed.endSession_not_mem_ofEffects _⟩

theorem acts_invokeOnPage (server : Server) (invocation : Invocation) :
    Acts number server (server.invokeDeeds number invocation)
      (server.invokeOnPage number invocation) := by
  unfold invokeDeeds invokeOnPage
  cases server.pageOf number with
  | none => exact .refl server
  | some page => exact (acts_queueOn server _).trans (acts_deliverAll _ _)

/-- The deeds of a reaction on the page of a session. -/
def reactDeeds (server : Server) (number : Nat) (reaction : Reaction) : List Deed :=
  match server.pageOf number with
  | none => []
  | some page =>
      let live := server.pageNow page
      (Page.queueCalls reaction live).map .queue ++ Deed.ofEffects (Page.run reaction live).2.1

theorem acts_reactOn (server : Server) (reaction : Reaction) :
    Acts number server (server.reactDeeds number reaction) (server.reactOn number reaction).1 := by
  unfold reactDeeds reactOn
  cases owned : server.pageOf number with
  | none => exact .refl server
  | some page => exact acts_putBack owned (Page.follows_run reaction _) _

theorem endSession_not_mem_reactDeeds (server : Server) (number : Nat) (reaction : Reaction) :
    .endSession ∉ server.reactDeeds number reaction := by
  unfold reactDeeds
  split
  · exact List.not_mem_nil
  · rw [List.mem_append, not_or]
    exact ⟨Deed.endSession_not_mem_queue _, Deed.endSession_not_mem_ofEffects _⟩

/-! ## What handlers do -/

/-- The deeds of closing a bracket, with those of the listeners that are told of what is sent. -/
def stopDeeds (server : Server) (number : Nat) : List Deed :=
  let step := (server.session number).synchronizer.stop
  server.queueDeeds number (server.answers number step.2) ++ [.call number .stop]

theorem endSession_not_mem_stopDeeds (server : Server) (number : Nat) :
    .endSession ∉ server.stopDeeds number := by
  unfold stopDeeds
  rw [List.mem_append, not_or]
  exact ⟨endSession_not_mem_queueDeeds _ _ _, by simp⟩

theorem acts_startQueueing (server : Server) :
    Acts number server [.call number .start] (server.startQueueing number) :=
  startQueueing_eq_relay server number ▸ (Act.call number .start).acts

theorem acts_clearQueued (server : Server) :
    Acts number server [.call number .clear] (server.clearQueued number) :=
  clearQueued_eq_relay server number ▸ (Act.call number .clear).acts

theorem acts_stopQueueing (server : Server) :
    Acts number server (server.stopDeeds number) (server.stopQueueing number) := by
  let step := (server.session number).synchronizer.stop
  let events := server.answers number step.2
  have queued : Acts number server _ (server.queueOn number events) := acts_queueOn server events
  have stopped : Acts number (server.queueOn number events) _
      ((server.queueOn number events).relay number .stop) := (Act.call number .stop).acts
  rw [relay, session_queueOn] at stopped
  exact queued.trans stopped

/-- The deeds of a conduct. -/
def performDeeds (request : Request) : Conduct → Server → List Deed
  | .done, _ => []
  | .fail _, _ => []
  | .look next, server => performDeeds request (next (server.viewOf request)) server
  | .note entry next, server => performDeeds request next (server.record [.note entry])
  | .queueEvent event next, server =>
      server.queueDeeds request.session [event] ++
        performDeeds request next
          (server.modifyPageOf request.session (fun page => page.queueEvent event))
  | .invoke invocation next, server =>
      server.invokeDeeds request.session invocation ++
        performDeeds request next (server.invokeOnPage request.session invocation)
  | .react reaction next, server =>
      let (acted, answer) := server.reactOn request.session reaction
      server.reactDeeds request.session reaction ++ performDeeds request (next answer) acted
  | .startQueueing next, server =>
      .call request.session .start ::
        performDeeds request next (server.startQueueing request.session)
  | .stopQueueing next, server =>
      server.stopDeeds request.session ++
        performDeeds request next (server.stopQueueing request.session)
  | .clearQueued next, server =>
      .call request.session .clear ::
        performDeeds request next (server.clearQueued request.session)
  | .destroySession next, server =>
      .endSession :: performDeeds request next (server.destroySession request.session)
  | .reenter next, server => performDeeds request next { server with current := none }

theorem acts_perform (request : Request) (conduct : Conduct) (server : Server) :
    Acts request.session server (performDeeds request conduct server)
      (perform request conduct server).1 := by
  induction conduct generalizing server with
  | done => exact .refl server
  | fail chain => exact .refl server
  | look next inductionHypothesis => exact inductionHypothesis _ server
  | note entry next inductionHypothesis =>
      have noted : server.Aside (server.record [.note entry]) := server.aside_record (fun _ => rfl)
      exact .step (.aside noted) (inductionHypothesis _)
  | queueEvent event next inductionHypothesis =>
      exact (acts_queueOn server [event]).trans (inductionHypothesis _)
  | invoke invocation next inductionHypothesis =>
      exact (acts_invokeOnPage server invocation).trans (inductionHypothesis _)
  | react reaction next inductionHypothesis =>
      exact (acts_reactOn server reaction).trans (inductionHypothesis _ _)
  | startQueueing next inductionHypothesis =>
      exact (acts_startQueueing server).trans (inductionHypothesis _)
  | stopQueueing next inductionHypothesis =>
      exact (acts_stopQueueing server).trans (inductionHypothesis _)
  | clearQueued next inductionHypothesis =>
      exact (acts_clearQueued server).trans (inductionHypothesis _)
  | destroySession next inductionHypothesis => exact .step .endSession (inductionHypothesis _)
  | reenter next inductionHypothesis =>
      have left : server.Aside { server with current := none } :=
        ⟨rfl, rfl, rfl, rfl, rfl, rfl, fun _ => rfl⟩
      exact .step (.aside left) (inductionHypothesis _)

/-! ## The initialization of a page -/

/-- The deeds of making the components of a page: what is emitted on the way. -/
def makeDeeds (server : Server) (page : Nat) (blueprint : Blueprint) : List Deed :=
  let emissions := ((server.pages.page page).state.materialize blueprint.tree none).1.emitted
  Deed.queueAll (server.echoes emissions) ++ Deed.ofEffects (Page.effectsOf emissions)

theorem acts_acceptBrowser {server : Server} {request : Request} {page : Nat}
    (owned : server.pageOf number = some page) {informed : Server}
    (accepted : server.acceptBrowser request page = .ok informed) :
    Acts number server [] informed := by
  unfold acceptBrowser at accepted
  split at accepted
  · cases accepted
  · cases accepted
    exact .refl server
  · cases accepted
    exact acts_modifyPage owned (fun _ => .of_same ⟨rfl, rfl, rfl⟩ rfl)

theorem acts_loadBlueprint (server : Server) (page : Nat) :
    Acts number server [] (server.loadBlueprint page).1 := by
  have read (cache : BlueprintCache) : server.Aside { server with cache := cache } :=
    ⟨rfl, rfl, rfl, rfl, rfl, rfl, fun _ => rfl⟩
  unfold loadBlueprint
  dsimp only
  split
  · exact (Act.aside (read _)).acts
  · exact (Act.aside (read _)).acts

theorem acts_materialize {server : Server} {page : Nat} (owned : server.pageOf number = some page)
    (blueprint : Blueprint) :
    Acts number server (server.makeDeeds page blueprint) (server.materialize page blueprint).1 := by
  let live := server.pages.page page
  have follows : live.Follows []
      (live.withState (live.state.materialize blueprint.tree none).1.page) :=
    .of_same (live.state.speaks_materialize blueprint.tree none).1
      (live.state.queue_materialize blueprint.tree none)
  exact acts_putPage owned (follows.queueAll _) _

theorem endSession_not_mem_makeDeeds (server : Server) (page : Nat) (blueprint : Blueprint) :
    .endSession ∉ server.makeDeeds page blueprint := by
  unfold makeDeeds
  rw [List.mem_append, not_or]
  exact ⟨Deed.endSession_not_mem_queue _, Deed.endSession_not_mem_ofEffects _⟩

/-- The deeds of lifecycle listeners that are told of a session. -/
def tellDeeds (number : Nat) (event : LifecycleEvent) :
    List LifecycleListener → Server → List Deed
  | [], _ => []
  | listener :: rest, server =>
      let entry : Entry :=
        .lifecycle event listener.name (server.session number).id (server.pageIdOf number)
      (server.record [entry]).reactDeeds number (listener.reaction event) ++
        match listener.veto? event with
        | some _ => []
        | none => tellDeeds number event rest (tellLifecycle number event listener server)

theorem acts_tellAll (event : LifecycleEvent) (listeners : List LifecycleListener)
    (server : Server) :
    Acts number server (tellDeeds number event listeners server)
      (tellAll number event listeners server).1 := by
  induction listeners generalizing server with
  | nil => exact .refl server
  | cons listener rest inductionHypothesis =>
      let entry : Entry :=
        .lifecycle event listener.name (server.session number).id (server.pageIdOf number)
      have recorded : server.Aside (server.record [entry]) := server.aside_record (fun _ => rfl)
      have told : Acts number server _ (tellLifecycle number event listener server) :=
        .step (.aside recorded) (acts_reactOn _ (listener.reaction event))
      unfold tellDeeds tellAll
      dsimp only
      cases listener.veto? event with
      | some reason =>
          dsimp only
          rwa [List.append_nil]
      | none => exact told.trans (inductionHypothesis _)

theorem endSession_not_mem_tellDeeds (event : LifecycleEvent) (listeners : List LifecycleListener)
    (server : Server) : .endSession ∉ tellDeeds number event listeners server := by
  induction listeners generalizing server with
  | nil => exact List.not_mem_nil
  | cons listener rest inductionHypothesis =>
      unfold tellDeeds
      rw [List.mem_append, not_or]
      refine ⟨endSession_not_mem_reactDeeds _ number _, ?_⟩
      split
      · exact List.not_mem_nil
      · exact inductionHypothesis _

theorem acts_notifyLifecycle (server : Server) :
    Acts number server (tellDeeds number .created server.lifecycle server)
      (server.notifyLifecycle number .created).1 := by
  have told : Acts number server _ (tellAll number .created server.lifecycle server).1 :=
    acts_tellAll .created server.lifecycle server
  have left : Aside (tellAll number .created server.lifecycle server).1
      (server.notifyLifecycle number .created).1 :=
    ⟨rfl, rfl, rfl, rfl, rfl, rfl, fun _ => rfl⟩
  have all := told.trans (Act.aside left).acts
  rwa [List.append_nil] at all

theorem acts_offer {server : Server} {page : Nat} (owned : server.pageOf number = some page)
    (made : List String) :
    Acts number server (tellDeeds number .created server.lifecycle server)
      (server.offer number page made).1 := by
  have told : Acts number server _ (server.notifyLifecycle number .created).1 :=
    acts_notifyLifecycle server
  have stillOwned := (told.pageOf (endSession_not_mem_tellDeeds _ _ _)).trans owned
  rw [← List.append_nil (tellDeeds number .created server.lifecycle server)]
  unfold offer
  split
  · next next outcome =>
      rw [outcome] at told stillOwned
      exact told.trans (acts_modifyPage stillOwned (fun _ => .of_same ⟨rfl, rfl, rfl⟩ rfl))
  · next next reason outcome =>
      rw [outcome] at told stillOwned
      exact told.trans (acts_modifyPage stillOwned (fun live =>
        .of_same (PageState.SameBinding.discardAll live.state made)
          (live.state.queue_discardAll made)))

/-- The deeds of initializing a page: making its components, and what the lifecycle listeners do
when they are told. -/
def initializeDeeds (server : Server) (request : Request) : List Deed :=
  match server.requirePage request with
  | .error _ => []
  | .ok page =>
      if (server.pages.page page).state.isInitialized then []
      else
        match server.acceptBrowser request page with
        | .error _ => []
        | .ok informed =>
            match informed.loadBlueprint page with
            | (_, .error _) => []
            | (next, .ok blueprint) =>
                next.makeDeeds page blueprint ++
                  match next.materialize page blueprint with
                  | (_, .error _) => []
                  | (made, .ok _) => tellDeeds request.session .created made.lifecycle made

theorem acts_initializePage (server : Server) (request : Request) :
    Acts request.session server (server.initializeDeeds request)
      (server.initializePage request).1 := by
  unfold initializeDeeds initializePage requirePage
  cases owned : server.pageOf request.session with
  | none => exact .refl server
  | some page =>
      dsimp only
      split
      · exact .refl server
      · cases accepted : server.acceptBrowser request page with
        | error error => exact .refl server
        | ok informed =>
            have first := acts_acceptBrowser owned accepted
            have second := first.trans (acts_loadBlueprint informed page)
            dsimp only
            cases loaded : informed.loadBlueprint page with
            | mk next outcome =>
                rw [loaded] at second
                cases outcome with
                | error chain => exact second
                | ok blueprint =>
                    have nextOwned := (second.pageOf List.not_mem_nil).trans owned
                    have made := acts_materialize nextOwned blueprint
                    have third := second.trans made
                    dsimp only
                    cases isMade : next.materialize page blueprint with
                    | mk last result =>
                        rw [isMade] at made third
                        cases result with
                        | error chain =>
                            dsimp only
                            rwa [List.append_nil]
                        | ok ids =>
                            have lastOwned :=
                              (made.pageOf (endSession_not_mem_makeDeeds _ _ _)).trans nextOwned
                            exact third.trans (acts_offer lastOwned ids)

def handleInitDeeds (server : Server) (request : Request) : List Deed :=
  let started := server.startQueueing request.session
  .call request.session .start :: started.initializeDeeds request ++
    match started.initializePage request with
    | (next, .ok ()) => next.stopDeeds request.session
    | (next, .error _) =>
        .call request.session .clear ::
          (next.clearQueued request.session).stopDeeds request.session

theorem acts_handleInit (server : Server) (request : Request) :
    Acts request.session server (server.handleInitDeeds request)
      (server.handleInit request).1 := by
  have started : Acts request.session server _ (server.startQueueing request.session) :=
    acts_startQueueing server
  have initialized := started.trans (acts_initializePage _ request)
  unfold handleInitDeeds handleInit
  dsimp only
  cases outcome : (server.startQueueing request.session).initializePage request with
  | mk next result =>
      rw [outcome] at initialized
      cases result with
      | ok _ => exact initialized.trans (acts_stopQueueing next)
      | error chain =>
          exact initialized.trans ((acts_clearQueued next).trans (acts_stopQueueing _))

/-! ## Requests -/

/-- The deeds of an event of the client. -/
def handleEventDeeds (server : Server) (request : Request) : List Deed :=
  match server.requirePage request with
  | .error _ => []
  | .ok _ =>
      match request.required Json.asText "type" with
      | .error _ => []
      | .ok eventType =>
          match request.required Json.asText "target" with
          | .error _ => []
          | .ok target =>
              Deed.queueAll
                [⟨eventType, target, (request.get? "data").getD .null, request.envelope.blob⟩]

theorem acts_handleEvent (server : Server) (request : Request) :
    Acts request.session server (server.handleEventDeeds request)
      (server.handleEvent request).1 := by
  unfold handleEventDeeds handleEvent requirePage
  cases owned : server.pageOf request.session with
  | none => exact .refl server
  | some page =>
      dsimp only
      cases request.required Json.asText "type" with
      | error error => exact .refl server
      | ok eventType =>
          dsimp only
          cases request.required Json.asText "target" with
          | error error => exact .refl server
          | ok target =>
              let event : Event :=
                ⟨eventType, target, (request.get? "data").getD .null, request.envelope.blob⟩
              exact acts_modifyPage owned (fun live =>
                (Page.Follows.of_same (.refl live.state) rfl).queueAll [event])

def handleDeeds (server : Server) (handler : RequestHandler) (request : Request) : List Deed :=
  match handler with
  | .init => server.handleInitDeeds request
  | .event => server.handleEventDeeds request
  | .log => []
  | .custom _ respond => performDeeds request (respond request) server

theorem acts_handle (server : Server) (handler : RequestHandler) (request : Request) :
    Acts request.session server (server.handleDeeds handler request)
      (server.handle handler request).1 := by
  cases handler with
  | init => exact acts_handleInit server request
  | event => exact acts_handleEvent server request
  | log => exact (Act.aside (server.aside_record (fun _ => rfl))).acts
  | custom requestType respond => exact acts_perform request (respond request) server

/-- The deeds of listeners that are told of a request. -/
def notifyDeeds (request : Request) : List SessionListener → Server → List Deed
  | [], _ => []
  | listener :: rest, server =>
      (server.record [.request listener request]).reactDeeds request.session
          (listener.onRequest request) ++
        notifyDeeds request rest (server.tellRequest request listener)

theorem acts_notifyAll (request : Request) (listeners : List SessionListener) (server : Server) :
    Acts request.session server (notifyDeeds request listeners server)
      (listeners.foldl (tellRequest request) server) := by
  induction listeners generalizing server with
  | nil => exact .refl server
  | cons listener rest inductionHypothesis =>
      have recorded : server.Aside (server.record [.request listener request]) :=
        server.aside_record (fun _ => rfl)
      have told : Acts request.session server _ (server.tellRequest request listener) :=
        .step (.aside recorded) (acts_reactOn _ (listener.onRequest request))
      exact told.trans (inductionHypothesis _)

/-- The deeds of the events that are queued on the page of a session. -/
def drainDeeds (server : Server) (number : Nat) : List Deed :=
  match server.pageOf number with
  | none => []
  | some page =>
      let live := server.pageNow page
      (live.dispatches server.eventBound).flatMap Page.dispatchDeeds ++
        Deed.ofEffects (live.drain server.eventBound 0).2.1

theorem acts_drainPageOf (server : Server) :
    Acts number server (server.drainDeeds number) (server.drainPageOf number).1 := by
  unfold drainDeeds drainPageOf
  cases owned : server.pageOf number with
  | none => exact .refl server
  | some page =>
      have drained := acts_putBack owned
        (Page.follows_drain server.eventBound 0 (server.pageNow page))
        ((server.pageNow page).drain server.eventBound 0).2.1
      dsimp only
      split <;> exact drained

def serveDeeds (server : Server) (handler : RequestHandler) (request : Request) : List Deed :=
  server.handleDeeds handler request ++
    match server.handle handler request with
    | (_, .error _) => []
    | (next, .ok ()) =>
        notifyDeeds request (next.session request.session).listeners next ++
          (next.notifyRequest request).drainDeeds request.session

theorem acts_serve (server : Server) (handler : RequestHandler) (request : Request) :
    Acts request.session server (server.serveDeeds handler request)
      (server.serve handler request).1 := by
  have handled := acts_handle server handler request
  unfold serveDeeds serve
  cases outcome : server.handle handler request with
  | mk next result =>
      rw [outcome] at handled
      cases result with
      | error chain =>
          dsimp only
          rwa [List.append_nil]
      | ok _ =>
          have notified := acts_notifyAll request (next.session request.session).listeners next
          exact handled.trans (notified.trans (acts_drainPageOf _))

def serveAloneDeeds (server : Server) (handler : RequestHandler) (request : Request) :
    List Deed :=
  { server with current := some request }.serveDeeds handler request

theorem acts_serveAlone (server : Server) (handler : RequestHandler) (request : Request) :
    Acts request.session server (server.serveAloneDeeds handler request)
      (server.serveAlone handler request).1 := by
  have entered : server.Aside { server with current := some request } :=
    ⟨rfl, rfl, rfl, rfl, rfl, rfl, fun _ => rfl⟩
  have served : Acts request.session server _ _ :=
    .step (.aside entered) (acts_serve _ handler request)
  have left : Aside ({ server with current := some request }.serve handler request).1
      (server.serveAlone handler request).1 :=
    ⟨rfl, rfl, rfl, rfl, rfl, rfl, fun _ => rfl⟩
  have all := served.trans (Act.aside left).acts
  rwa [List.nil_append, List.append_nil] at all

/-- The deeds of a request that the session is bound for. -/
def attemptDeeds (server : Server) (request : Request) : List Deed :=
  match server.initSession request.session request.pid with
  | .error _ => []
  | .ok (bound, _) =>
      match bound.handlers.get? request.requestType with
      | none => []
      | some handler => bound.serveAloneDeeds handler request

/-- The deeds of a request, with the clearing of the queue after a failure. -/
def processDeeds (server : Server) (request : Request) : List Deed :=
  server.attemptDeeds request ++
    match server.attempt request with
    | (_, .ok ()) => []
    | (next, .error _) =>
        if (next.pageOf request.session).isSome then [.queue .clear] else []

/-- A request is bound to a page or not, and then there are acts only. -/
theorem acts_attempt (server : Server) (request : Request) :
    ((∃ error, server.initSession request.session request.pid = .error error ∧
          server.attempt request = (server, .error [error.message])) ∧
        server.attemptDeeds request = []) ∨
      ∃ bound isFirst, server.initSession request.session request.pid = .ok (bound, isFirst) ∧
        Acts request.session bound (server.attemptDeeds request) (server.attempt request).1 := by
  unfold attemptDeeds attempt
  cases server.initSession request.session request.pid with
  | error error => exact .inl ⟨⟨error, rfl, rfl⟩, rfl⟩
  | ok result =>
      obtain ⟨bound, isFirst⟩ := result
      refine .inr ⟨bound, isFirst, rfl, ?_⟩
      dsimp only
      cases bound.handlers.get? request.requestType with
      | none => exact .refl bound
      | some handler => exact acts_serveAlone bound handler request

/-! ## Deeds that leave the session alive -/

theorem endSession_not_mem_performDeeds {request : Request} {conduct : Conduct}
    (spares : conduct.Spares) (server : Server) :
    .endSession ∉ performDeeds request conduct server := by
  induction conduct generalizing server with
  | done => exact List.not_mem_nil
  | fail chain => exact List.not_mem_nil
  | look next inductionHypothesis => exact inductionHypothesis _ (spares _) server
  | note entry next inductionHypothesis => exact inductionHypothesis spares _
  | queueEvent event next inductionHypothesis =>
      unfold performDeeds
      exact fun isDeed => (List.mem_append.mp isDeed).elim
        (endSession_not_mem_queueDeeds _ _ _) (inductionHypothesis spares _)
  | invoke invocation next inductionHypothesis =>
      unfold performDeeds
      exact fun isDeed => (List.mem_append.mp isDeed).elim
        (endSession_not_mem_invokeDeeds _ _ _) (inductionHypothesis spares _)
  | react reaction next inductionHypothesis =>
      unfold performDeeds
      exact fun isDeed => (List.mem_append.mp isDeed).elim
        (endSession_not_mem_reactDeeds server request.session reaction)
        (inductionHypothesis _ (spares _) _)
  | startQueueing next inductionHypothesis =>
      exact List.not_mem_cons_of_ne_of_not_mem nofun (inductionHypothesis spares _)
  | stopQueueing next inductionHypothesis =>
      unfold performDeeds
      exact fun isDeed => (List.mem_append.mp isDeed).elim
        (endSession_not_mem_stopDeeds _ _) (inductionHypothesis spares _)
  | clearQueued next inductionHypothesis =>
      exact List.not_mem_cons_of_ne_of_not_mem nofun (inductionHypothesis spares _)
  | destroySession next => exact spares.elim
  | reenter next inductionHypothesis => exact inductionHypothesis spares _

theorem endSession_not_mem_initializeDeeds (server : Server) (request : Request) :
    .endSession ∉ server.initializeDeeds request := by
  unfold initializeDeeds
  split
  · exact List.not_mem_nil
  · split
    · exact List.not_mem_nil
    · split
      · exact List.not_mem_nil
      · split
        · exact List.not_mem_nil
        · rw [List.mem_append, not_or]
          refine ⟨endSession_not_mem_makeDeeds _ _ _, ?_⟩
          split
          · exact List.not_mem_nil
          · exact endSession_not_mem_tellDeeds _ _ _

theorem endSession_not_mem_handleInitDeeds (server : Server) (request : Request) :
    .endSession ∉ server.handleInitDeeds request := by
  have initialized :=
    endSession_not_mem_initializeDeeds (server.startQueueing request.session) request
  unfold handleInitDeeds
  dsimp only
  rw [List.mem_append, not_or]
  refine ⟨List.not_mem_cons_of_ne_of_not_mem nofun initialized, ?_⟩
  split
  · exact endSession_not_mem_stopDeeds _ _
  · exact List.not_mem_cons_of_ne_of_not_mem nofun (endSession_not_mem_stopDeeds _ _)

theorem endSession_not_mem_handleEventDeeds (server : Server) (request : Request) :
    .endSession ∉ server.handleEventDeeds request := by
  unfold handleEventDeeds
  split
  · exact List.not_mem_nil
  · split
    · exact List.not_mem_nil
    · split
      · exact List.not_mem_nil
      · exact Deed.endSession_not_mem_queue _

theorem endSession_not_mem_handleDeeds {handler : RequestHandler} (spares : handler.Spares)
    (server : Server) (request : Request) : .endSession ∉ server.handleDeeds handler request := by
  cases handler with
  | init => exact endSession_not_mem_handleInitDeeds server request
  | event => exact endSession_not_mem_handleEventDeeds server request
  | log => exact List.not_mem_nil
  | custom requestType respond => exact endSession_not_mem_performDeeds (spares request) server

theorem endSession_not_mem_notifyDeeds (request : Request) (listeners : List SessionListener)
    (server : Server) : .endSession ∉ notifyDeeds request listeners server := by
  induction listeners generalizing server with
  | nil => exact List.not_mem_nil
  | cons listener rest inductionHypothesis =>
      exact fun isDeed => (List.mem_append.mp isDeed).elim
        (endSession_not_mem_reactDeeds _ request.session _) (inductionHypothesis _)

theorem endSession_not_mem_drainDeeds (server : Server) (number : Nat) :
    .endSession ∉ server.drainDeeds number := by
  unfold drainDeeds
  split
  · exact List.not_mem_nil
  · rw [List.mem_append, not_or]
    refine ⟨?_, Deed.endSession_not_mem_ofEffects _⟩
    simp [Page.dispatchDeeds]

theorem endSession_not_mem_serveDeeds {handler : RequestHandler} (spares : handler.Spares)
    (server : Server) (request : Request) : .endSession ∉ server.serveDeeds handler request := by
  have handled := endSession_not_mem_handleDeeds spares server request
  unfold serveDeeds
  rw [List.mem_append, not_or]
  refine ⟨handled, ?_⟩
  split
  · exact List.not_mem_nil
  · rw [List.mem_append, not_or]
    exact ⟨endSession_not_mem_notifyDeeds _ _ _, endSession_not_mem_drainDeeds _ _⟩

/-- Handlers that leave the session alive. -/
def Spares (server : Server) : Prop :=
  ∀ requestType handler, server.handlers.get? requestType = some handler → handler.Spares

theorem handlers_initSession {pid : String} {bound : Server} {isFirst : Bool}
    (outcome : server.initSession number pid = .ok (bound, isFirst)) :
    bound.handlers = server.handlers := by
  unfold initSession at outcome
  split at outcome
  · cases outcome
  · cases outcome
    rfl

theorem endSession_not_mem_attemptDeeds (spares : server.Spares) (request : Request) :
    .endSession ∉ server.attemptDeeds request := by
  unfold attemptDeeds
  split
  · exact List.not_mem_nil
  · next bound isFirst outcome =>
      split
      · exact List.not_mem_nil
      · next handler isHandler =>
          rw [handlers_initSession outcome] at isHandler
          exact endSession_not_mem_serveDeeds (spares _ handler isHandler) _ request

end Server

end LivePage
