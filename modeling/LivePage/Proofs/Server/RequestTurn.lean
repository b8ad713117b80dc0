import LivePage.Proofs.Server.Reception
import LivePage.Proofs.Server.Turns
import LivePage.Proofs.Session.Ending

/-!
Contract: what clients send is a turn of their own session.

Owns:
- the steps of the handlers that every server has, and the acts of other handlers;
- requests: unless one names a page that another session has, it is a turn of its session;
- fragments of messages and the end of connections, likewise.

Does not own: runs of several connections.
-/

namespace LivePage

namespace Server

open PageState

variable {server : Server} {number : Nat}

/-! ## The end of a session -/

theorem turn_destroySession (exclusive : server.Exclusive) :
    Turn number server (server.destroySession number) := by
  unfold destroySession
  cases isPhase : (server.session number).phase with
  | destroyed =>
      rw [Connection.destroy_of_destroyed isPhase]
      have same : Stay number server (server.modifyConnection number (fun _ =>
          server.connection number)) := stay_modifyConnection exclusive rfl rfl
      exact (same.trans (stay_record same.exclusive (fun _ _ => rfl))).toTurn
  | created =>
      rw [Connection.destroy_of_created isPhase]
      have noPage : none = (server.session number).page? := by
        rw [Session.page?, isPhase]
        rfl
      have changed : Stay number server (server.modifyConnection number (fun _ =>
          (server.connection number).ended (server.session number).synchronizer)) :=
        stay_modifyConnection exclusive rfl noPage
      exact (changed.trans (stay_record changed.exclusive (fun _ _ => rfl))).toTurn
  | initialized page =>
      rw [Connection.destroy_of_initialized isPhase]
      let session := server.session number
      let left := (server.connection number).ended session.synchronizer.start
      have isLeft := left.session.notifyEnd_eq session.listeners
      have owned : server.pageOf number = some page := by
        rw [pageOf, Session.page?, isPhase]
        rfl
      let last := left.withSession (left.session.notifyEnd session.listeners)
      have sameNumber : last.session.number = session.number := by
        show (left.session.notifyEnd session.listeners).number = session.number
        rw [isLeft]
        rfl
      have noPage : last.session.page? = none := by
        show (left.session.notifyEnd session.listeners).page? = none
        rw [isLeft]
        rfl
      have changed := turn_end exclusive owned sameNumber noPage
      exact changed.trans (stay_record changed.exclusive
        (fun other _ => framesOn_map other (fun _ => rfl) session.listeners)).toTurn

/-! ## Acts of handlers -/

theorem stay_startQueueing (exclusive : server.Exclusive) :
    Stay number server (server.startQueueing number) :=
  stay_withSynchronizer exclusive (fun session => session.synchronizer.start)

theorem stay_clearQueued (exclusive : server.Exclusive) :
    Stay number server (server.clearQueued number) :=
  stay_withSynchronizer exclusive (fun session => session.synchronizer.clear)

theorem stay_queueOn (exclusive : server.Exclusive) (events : List Event) :
    Stay number server (server.queueOn number events) :=
  stay_modifyPageOf exclusive (fun _ => ⟨rfl, rfl, rfl⟩)

theorem stay_stopQueueing (exclusive : server.Exclusive) :
    Stay number server (server.stopQueueing number) := by
  let step := (server.session number).synchronizer.stop
  have queued : Stay number server (server.queueOn number (server.answers number step.2)) :=
    stay_queueOn exclusive _
  exact queued.trans (stay_release queued.exclusive step)

theorem stay_invokeOnPage (exclusive : server.Exclusive) (invocation : Invocation) :
    Stay number server (server.invokeOnPage number invocation) := by
  unfold invokeOnPage
  split
  · exact stay_refl number exclusive
  · next page owned =>
      let emissions := (server.pages.page page).state.emit invocation
      have queued : Stay number server (server.queueOn number (server.echoes emissions)) :=
        stay_queueOn exclusive _
      have speaks := Page.speaks_emit (server.pages.page page) invocation
      refine queued.trans (stay_deliverAll queued.exclusive ?_)
      intro emission isEmitted
      exact exclusive.sink_eq owned (speaks.addressed emission isEmitted)

/-- Whatever a handler does about a request, it does on the request's session. -/
theorem turn_perform (exclusive : server.Exclusive) (request : Request) (conduct : Conduct) :
    Turn request.session server (perform request conduct server).1 := by
  induction conduct generalizing server with
  | done => exact (stay_refl _ exclusive).toTurn
  | fail chain => exact (stay_refl _ exclusive).toTurn
  | look next inductionHypothesis => exact inductionHypothesis _ exclusive
  | note entry next inductionHypothesis =>
      have act : Stay request.session server (server.record [.note entry]) :=
        stay_record exclusive (fun _ _ => rfl)
      exact act.toTurn.trans (inductionHypothesis act.exclusive)
  | queueEvent event next inductionHypothesis =>
      have act : Stay request.session server
          (server.modifyPageOf request.session (fun page => page.queueEvent event)) :=
        stay_modifyPageOf exclusive (fun _ => ⟨rfl, rfl, rfl⟩)
      exact act.toTurn.trans (inductionHypothesis act.exclusive)
  | invoke invocation next inductionHypothesis =>
      have act : Stay request.session server _ := stay_invokeOnPage exclusive invocation
      exact act.toTurn.trans (inductionHypothesis act.exclusive)
  | react reaction next inductionHypothesis =>
      have act : Stay request.session server _ := stay_reactOn exclusive reaction
      exact act.toTurn.trans (inductionHypothesis _ act.exclusive)
  | startQueueing next inductionHypothesis =>
      have act : Stay request.session server _ := stay_startQueueing exclusive
      exact act.toTurn.trans (inductionHypothesis act.exclusive)
  | stopQueueing next inductionHypothesis =>
      have act : Stay request.session server _ := stay_stopQueueing exclusive
      exact act.toTurn.trans (inductionHypothesis act.exclusive)
  | clearQueued next inductionHypothesis =>
      have act : Stay request.session server _ := stay_clearQueued exclusive
      exact act.toTurn.trans (inductionHypothesis act.exclusive)
  | destroySession next inductionHypothesis =>
      have act : Turn request.session server _ := turn_destroySession exclusive
      exact act.trans (inductionHypothesis act.exclusive)
  | reenter next inductionHypothesis =>
      have act : Stay request.session server { server with current := none } :=
        stay_of_same exclusive rfl rfl (fun _ _ => rfl)
      exact act.toTurn.trans (inductionHypothesis act.exclusive)

/-! ## Initialization of a page -/

theorem stay_acceptBrowser (exclusive : server.Exclusive) {request : Request} {page : Nat}
    (owned : server.pageOf number = some page) {informed : Server}
    (accepted : server.acceptBrowser request page = .ok informed) :
    Stay number server informed := by
  unfold acceptBrowser at accepted
  split at accepted
  · cases accepted
  · cases accepted
    exact stay_refl number exclusive
  · cases accepted
    exact stay_modifyPage exclusive owned (fun _ => ⟨rfl, rfl, rfl⟩)

theorem stay_loadBlueprint (exclusive : server.Exclusive) (page : Nat) :
    Stay number server (server.loadBlueprint page).1 := by
  unfold loadBlueprint
  dsimp only
  split
  · exact stay_of_same exclusive rfl rfl (fun _ _ => rfl)
  · exact stay_of_same exclusive rfl rfl (fun _ _ => rfl)

theorem stay_materialize (exclusive : server.Exclusive) {page : Nat}
    (owned : server.pageOf number = some page) (blueprint : Blueprint) :
    Stay number server (server.materialize page blueprint).1 := by
  obtain ⟨same, addressed⟩ := (server.stateOf page).speaks_materialize blueprint.tree none
  let building := ((server.stateOf page).materialize blueprint.tree none).1
  have speaks : Page.Speaks (server.pages.page page) (Page.effectsOf building.emitted)
      ((server.pages.page page).withState building.page) := by
    refine ⟨Or.inl same, ?_⟩
    rw [emissionsOf_effectsOf]
    exact addressed
  exact stay_of_speaks exclusive owned (speaks.queueAll _)

theorem stay_offer (exclusive : server.Exclusive) {page : Nat}
    (owned : server.pageOf number = some page) (made : List String) :
    Stay number server (server.offer number page made).1 := by
  have told : Stay number server (server.notifyLifecycle number .created).1 :=
    stay_notifyLifecycle exclusive .created
  have stillOwned := told.page.trans owned
  unfold offer
  split
  · next next outcome =>
      rw [outcome] at told stillOwned
      exact told.trans (stay_modifyPage told.exclusive stillOwned (fun _ => ⟨rfl, rfl, rfl⟩))
  · next next reason outcome =>
      rw [outcome] at told stillOwned
      exact told.trans (stay_modifyPage told.exclusive stillOwned
        (fun live => SameBinding.discardAll live.state made))

theorem stay_initializePage (exclusive : server.Exclusive) (request : Request) :
    Stay request.session server (server.initializePage request).1 := by
  have unchanged := stay_refl request.session exclusive
  unfold initializePage requirePage
  cases owned : server.pageOf request.session with
  | none => exact unchanged
  | some page =>
      dsimp only
      split
      · exact unchanged
      · cases accepted : server.acceptBrowser request page with
        | error error => exact unchanged
        | ok informed =>
            -- on each of the turns that follow, the session keeps the page
            have first := stay_acceptBrowser exclusive owned accepted
            have second := first.trans (stay_loadBlueprint first.exclusive page)
            dsimp only
            cases loaded : informed.loadBlueprint page with
            | mk next outcome =>
                rw [loaded] at second
                cases outcome with
                | error chain => exact second
                | ok blueprint =>
                    have nextOwned := second.page.trans owned
                    have third := second.trans
                      (stay_materialize second.exclusive nextOwned blueprint)
                    dsimp only
                    cases made : next.materialize page blueprint with
                    | mk last result =>
                        rw [made] at third
                        cases result with
                        | error chain => exact third
                        | ok ids =>
                            exact third.trans
                              (stay_offer third.exclusive (third.page.trans owned) ids)

theorem stay_handleInit (exclusive : server.Exclusive) (request : Request) :
    Stay request.session server (server.handleInit request).1 := by
  have started : Stay request.session server _ := stay_startQueueing exclusive
  have initialized := started.trans (stay_initializePage started.exclusive request)
  unfold handleInit
  split
  · next next outcome =>
      rw [outcome] at initialized
      exact initialized.trans (stay_stopQueueing initialized.exclusive)
  · next next chain outcome =>
      rw [outcome] at initialized
      have cleared := initialized.trans (stay_clearQueued initialized.exclusive)
      exact cleared.trans (stay_stopQueueing cleared.exclusive)

/-! ## Requests -/

theorem stay_handleEvent (exclusive : server.Exclusive) (request : Request) :
    Stay request.session server (server.handleEvent request).1 := by
  have unchanged := stay_refl request.session exclusive
  unfold handleEvent requirePage
  cases owned : server.pageOf request.session with
  | none => exact unchanged
  | some page =>
      dsimp only
      split
      · exact unchanged
      · split
        · exact unchanged
        · exact stay_modifyPage exclusive owned (fun _ => ⟨rfl, rfl, rfl⟩)

theorem turn_handle (exclusive : server.Exclusive) (handler : RequestHandler)
    (request : Request) : Turn request.session server (server.handle handler request).1 := by
  cases handler with
  | init => exact (stay_handleInit exclusive request).toTurn
  | event => exact (stay_handleEvent exclusive request).toTurn
  | log => exact (stay_record exclusive (fun _ _ => rfl)).toTurn
  | custom requestType respond => exact turn_perform exclusive request (respond request)

theorem stay_tellRequest (exclusive : server.Exclusive) (request : Request)
    (listener : SessionListener) :
    Stay request.session server (server.tellRequest request listener) := by
  have recorded : Stay request.session server (server.record [.request listener request]) :=
    stay_record exclusive (fun _ _ => rfl)
  exact recorded.trans (stay_reactOn recorded.exclusive _)

theorem stay_notifyRequest (exclusive : server.Exclusive) (request : Request) :
    Stay request.session server (server.notifyRequest request) := by
  unfold notifyRequest
  induction (server.session request.session).listeners generalizing server with
  | nil => exact stay_refl request.session exclusive
  | cons listener rest inductionHypothesis =>
      have told := stay_tellRequest exclusive request listener
      exact told.trans (inductionHypothesis told.exclusive)

theorem stay_drainPageOf (exclusive : server.Exclusive) :
    Stay number server (server.drainPageOf number).1 := by
  unfold drainPageOf
  split
  · exact stay_refl number exclusive
  · next page owned =>
      have drained := stay_of_speaks_now exclusive owned
        (Page.speaks_drain server.eventBound 0 (server.pageNow page))
      dsimp only
      split <;> exact drained

theorem turn_serve (exclusive : server.Exclusive) (handler : RequestHandler)
    (request : Request) : Turn request.session server (server.serve handler request).1 := by
  have handled := turn_handle exclusive handler request
  unfold serve
  split
  · next next chain outcome =>
      rw [outcome] at handled
      exact handled
  · next next outcome =>
      rw [outcome] at handled
      have notified : Stay request.session next _ := stay_notifyRequest handled.exclusive request
      exact (handled.trans notified.toTurn).trans (stay_drainPageOf notified.exclusive).toTurn

theorem turn_serveAlone (exclusive : server.Exclusive) (handler : RequestHandler)
    (request : Request) : Turn request.session server (server.serveAlone handler request).1 := by
  have entered : Stay request.session server { server with current := some request } :=
    stay_of_same exclusive rfl rfl (fun _ _ => rfl)
  have served := entered.toTurn.trans (turn_serve entered.exclusive handler request)
  have left : Stay request.session _ (server.serveAlone handler request).1 :=
    stay_of_same served.exclusive rfl rfl (fun _ _ => rfl)
  exact served.trans left.toTurn

/-- A session that is bound to the page that a request names keeps it, and a new session gets
it if nobody has it. -/
theorem turn_initSession (exclusive : server.Exclusive)
    (known : number < server.connections.size) {pid : String}
    (isFree : ¬server.Contends number pid) {bound : Server} {isFirst : Bool}
    (outcome : server.initSession number pid = .ok (bound, isFirst)) :
    Turn number server bound := by
  unfold initSession Session.init at outcome
  cases isPhase : (server.session number).phase with
  | destroyed => simp [isPhase] at outcome
  | initialized page =>
      -- the session has a page already, which is what it asks for or the request fails
      have same : server.modifySession number (fun _ => server.session number) = server :=
        modifyConnection_of_eq rfl
      simp only [isPhase] at outcome
      split at outcome
      · cases outcome
      · next init =>
          split at init
          · cases init
            cases outcome
            rw [same]
            exact (stay_refl number exclusive).toTurn
          · cases init
  | created =>
      simp only [isPhase] at outcome
      cases isRegistered : server.pages.get? pid with
      | none => simp [isRegistered] at outcome
      | some page =>
          simp only [isRegistered] at outcome
          cases outcome
          have isNumber := exclusive.numbered number known
          rw [isNumber]
          refine turn_claim exclusive known isPhase isRegistered ?_ rfl rfl
          intro other owned
          exact isFree ⟨isPhase, page, other, isRegistered, owned⟩

theorem turn_attempt (exclusive : server.Exclusive) (request : Request)
    (known : request.session < server.connections.size)
    (isFree : ¬server.Contends request.session request.pid) :
    Turn request.session server (server.attempt request).1 := by
  unfold attempt
  split
  · exact (stay_refl _ exclusive).toTurn
  · next bound isFirst outcome =>
      have claimed := turn_initSession exclusive known isFree outcome
      split
      · exact claimed
      · next handler _ => exact claimed.trans (turn_serveAlone claimed.exclusive handler request)

theorem turn_process (exclusive : server.Exclusive) (known : number < server.connections.size)
    {envelope : Envelope} (isFree : ¬server.Contends number envelope.pid) :
    Turn number server (server.process number envelope) := by
  let request : Request := ⟨number, (server.session number).id, envelope⟩
  have attempted : Turn number server (server.attempt request).1 :=
    turn_attempt exclusive request known isFree
  unfold process
  dsimp only
  split
  · next next outcome =>
      rw [outcome] at attempted
      exact attempted
  · next next chain outcome =>
      rw [outcome] at attempted
      have cleared : Stay number next (next.modifyPageOf number PageState.clearQueue) :=
        stay_modifyPageOf attempted.exclusive (fun _ => ⟨rfl, rfl, rfl⟩)
      exact (attempted.trans cleared.toTurn).trans (stay_sendError cleared.exclusive chain).toTurn

/-! ## Messages -/

/-- Only a connection leads to a session. -/
theorem known_of_reachesSession (reaches : server.reachesSession number = true) :
    number < server.connections.size := by
  apply Nat.lt_of_not_le
  intro unknown
  rw [reachesSession, socket, connection_of_unknown unknown] at reaches
  cases reaches

theorem turn_dispatch (exclusive : server.Exclusive) {decoded : Except WireError Envelope}
    (isFree : ∀ envelope, decoded = .ok envelope → ¬server.Contends number envelope.pid) :
    Turn number server (server.dispatch number decoded) := by
  unfold dispatch
  split
  · next reaches =>
      split
      · next envelope =>
          exact turn_process exclusive (known_of_reachesSession reaches) (isFree envelope rfl)
      · next error => exact (stay_sendError exclusive error.chain).toTurn
  · exact (stay_refl number exclusive).toTurn

theorem stay_reject (exclusive : server.Exclusive) (error : WireError) :
    Stay number server (server.reject number error) := by
  unfold reject
  split
  · exact stay_sendError exclusive error.chain
  · exact stay_refl number exclusive

/-- The request that a fragment completes. -/
def arriving {φ : Type} [Payload φ] (server : Server) (kind : MessageKind φ) (number : Nat)
    (fragment : φ) (isLast : Bool) : Option Envelope :=
  match (Inbox.take (kind.slot (server.socket number).inbox) fragment isLast
      server.limits.message).2 with
  | .ok (some message) => (kind.decode server.limits message).toOption
  | _ => none

/-- A fragment completes a request that names a page of another session. -/
def IsContested {φ : Type} [Payload φ] (server : Server) (kind : MessageKind φ) (number : Nat)
    (fragment : φ) (isLast : Bool) : Prop :=
  ∃ envelope, server.arriving kind number fragment isLast = some envelope ∧
    server.Contends number envelope.pid

theorem session_modifySocket (server : Server) (number other : Nat) (change : Socket → Socket) :
    (server.modifySocket number change).session other = server.session other := by
  unfold session modifySocket
  rw [connection_modifyConnection_eq]
  split
  · next same => rw [same.1]; rfl
  · rfl

/-- Putting away a fragment leaves who has which page. -/
theorem contends_withSlot {φ : Type} {kind : MessageKind φ} {kept : Option (Assembler φ)}
    {pid : String} (contends : (server.withSlot kind number kept).Contends number pid) :
    server.Contends number pid := by
  obtain ⟨isCreated, page, other, isRegistered, owned⟩ := contends
  unfold pageOf at owned
  rw [withSlot, session_modifySocket] at isCreated owned
  exact ⟨isCreated, page, other, isRegistered, owned⟩

theorem turn_receive {φ : Type} [Payload φ] (exclusive : server.Exclusive)
    {kind : MessageKind φ} {fragment : φ} {isLast : Bool}
    (isFree : ¬server.IsContested kind number fragment isLast) :
    Turn number server (server.receive kind number fragment isLast) := by
  have put (kept : Option (Assembler φ)) :
      Stay number server (server.withSlot kind number kept) := by
    unfold withSlot
    exact stay_modifySocket exclusive _
  unfold receive
  dsimp only
  split
  · exact (put _).toTurn
  · next message outcome =>
      refine (put _).toTurn.trans (turn_dispatch (put _).exclusive ?_)
      intro envelope decoded contends
      refine isFree ⟨envelope, ?_, contends_withSlot contends⟩
      unfold arriving
      rw [outcome]
      dsimp only
      rw [decoded]
      rfl
  · next error _ => exact ((put _).trans (stay_reject (put _).exclusive error)).toTurn

theorem stay_unregister (exclusive : server.Exclusive) (id : String) :
    Stay number server (server.unregister id) :=
  stay_of_same exclusive rfl rfl (fun _ _ => rfl)

theorem turn_disconnect (exclusive : server.Exclusive) :
    Turn number server (server.disconnect number) := by
  have cleared : Stay number server (server.modifySocket number Socket.clearFragments) :=
    stay_modifySocket exclusive _
  unfold disconnect
  dsimp only
  split
  · have told : Stay number _ _ := stay_notifyLifecycle cleared.exclusive .destroyed
    have ended := (cleared.trans told).toTurn.trans (turn_destroySession told.exclusive)
    exact ended.trans (stay_unregister ended.exclusive _).toTurn
  · exact cleared.toTurn

end Server

end LivePage
