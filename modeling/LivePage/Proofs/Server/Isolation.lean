import LivePage.Proofs.Server.Progress
import LivePage.Proofs.Server.SessionCalls

/-!
Contract: messages that do not disturb one another.

Owns:
- what a message of a client is taken for, what it consists of, and how it ends;
- sessions at rest, on which nothing is left of earlier messages;
- a message of a session at rest leaves nothing behind but its frames, with an alert at the end
  if it fails anywhere, and dispatches only events that were queued on its way.

Does not own: messages that end the session, and fragments that are refused.
-/

namespace LivePage

/-- No fragment before the last one is too much beside those before it. -/
def Message.IsWhole (limit : Nat) (message : Message) : Prop :=
  message.refusals limit = 0

theorem Message.remainder_of_isWhole {limit : Nat} {message : Message}
    (isWhole : message.IsWhole limit) : message.remainder limit = message := by
  cases message with
  | text earlier last =>
      exact congrArg (Message.text · last) (Inbox.keptAfter_of_refusals_eq_zero isWhole)
  | binary earlier last =>
      exact congrArg (Message.binary · last) (Inbox.keptAfter_of_refusals_eq_zero isWhole)

instance (limit : Nat) : (message : Message) → Decidable (message.EndsTooLarge limit)
  | .text earlier last =>
      inferInstanceAs (Decidable (Inbox.Exceeds limit (Inbox.keptAfter limit [] earlier) last))
  | .binary earlier last =>
      inferInstanceAs (Decidable (Inbox.Exceeds limit (Inbox.keptAfter limit [] earlier) last))

/-- The frames that tell the client of a failure. -/
def alertsOf : Except (List String) Unit → List Frame
  | .ok () => []
  | .error chain =>
      [.single ⟨"fujion.alert", none,
        [.str (alertText chain), .str alertTitle, .str alertFlavor]⟩]

namespace Server

theorem framesOn_alert (number : Nat) (chain : List String) :
    framesOn number [.frame number (.single (.alert (alertText chain) alertTitle alertFlavor))] =
      alertsOf (.error chain) :=
  List.filterMap_cons_some (if_pos rfl)

variable {server : Server} {number : Nat} {message : Message} {request : Request}

/-! ## What a message is taken for -/

/-- The request in a message, unless that is too large or says something else. -/
def arrival (server : Server) (message : Message) : Except WireError Envelope :=
  if message.EndsTooLarge server.limits.message then
    .error (.messageTooLarge server.limits.message)
  else message.decode server.limits

def requestOf (server : Server) (number : Nat) (envelope : Envelope) : Request :=
  ⟨number, (server.session number).id, envelope⟩

/-- How a message ends. -/
def messageOutcome (server : Server) (number : Nat) (message : Message) :
    Except (List String) Unit :=
  match server.arrival message with
  | .error error => .error error.chain
  | .ok envelope => (server.attempt (server.requestOf number envelope)).2

/-- The deeds that a message consists of. -/
def messageDeeds (server : Server) (number : Nat) (message : Message) : List Deed :=
  match server.arrival message with
  | .error _ => []
  | .ok envelope => server.processDeeds (server.requestOf number envelope)

/-- Takes messages one after another. -/
def receiveMessages (server : Server) (number : Nat) (messages : List Message) : Server :=
  messages.foldl (fun server message => server.receiveMessage number message) server

/-! ## Sessions at rest -/

/-- A session with an open socket, on which nothing is going on: no request is being processed,
no fragments wait, and no events are queued. Its handlers do not end it. -/
structure AtRest (server : Server) (number : Nat) : Prop where
  reaches : server.Reaches number
  isAttached : (server.socket number).isAttached = true
  inbox : (server.socket number).inbox = .empty
  idle : server.current = none
  quiet : ∀ page, (server.stateOf page).queue = []
  registered : ∀ id page, server.pages.get? id = some page → page < server.pages.pages.size
  owned : ∀ page, server.pageOf number = some page → page < server.pages.pages.size
  spares : server.Spares

theorem AtRest.reachesSession (atRest : server.AtRest number) :
    server.reachesSession number = true := by
  unfold Server.reachesSession
  rw [atRest.isAttached, atRest.reaches.alive]
  rfl

theorem sendError_of_isOpen (isOpen : (server.socket number).isOpen = true)
    (chain : List String) :
    server.sendError number chain =
      server.record [.frame number (.single (.alert (alertText chain) alertTitle alertFlavor))] :=
  if_pos isOpen

/-- A message of a session at rest is processed, or its fault is reported. -/
theorem receiveMessage_of_atRest (atRest : server.AtRest number)
    (isWhole : message.IsWhole server.limits.message) :
    server.receiveMessage number message =
      match server.arrival message with
      | .error error => server.sendError number error.chain
      | .ok envelope => server.process number envelope := by
  have isNext : message.IsNext (server.socket number).inbox := by
    rw [atRest.inbox]
    cases message <;> rfl
  have notYet : server.refuseTimes number 0 = server := record_nil server
  unfold arrival
  by_cases ends : message.EndsTooLarge server.limits.message
  · rw [receiveMessage_of_endsTooLarge atRest.reaches.known isNext ends, isWhole, if_pos ends,
      ← refuseTimes_add_one, notYet, ← reject_eq_record]
    exact if_pos atRest.reachesSession
  · rw [receiveMessage_of_fits atRest.reaches.known isNext ends, isWhole, notYet,
      Message.remainder_of_isWhole isWhole, if_neg ends]
    unfold dispatch
    rw [if_pos atRest.reachesSession]
    cases message.decode server.limits <;> rfl

/-! ## What a request leaves -/

/-- A session that is bound to a page for a request. -/
theorem bound_of_initSession {pid : String} {bound : Server} {isFirst : Bool}
    (outcome : server.initSession number pid = .ok (bound, isFirst)) :
    (bound = server ∧ ∃ page, (server.session number).phase = .initialized page) ∨
      ∃ page, (server.session number).phase = .created ∧ server.pages.get? pid = some page ∧
        bound = server.claimPage number page := by
  cases isPhase : (server.session number).phase with
  | destroyed =>
      rw [initSession_of_destroyed isPhase] at outcome
      cases outcome
  | initialized page =>
      rw [initSession_of_initialized isPhase] at outcome
      split at outcome
      · cases outcome
        exact .inl ⟨rfl, page, rfl⟩
      · cases outcome
  | created =>
      cases isRegistered : server.pages.get? pid with
      | none =>
          rw [initSession_of_unregistered isPhase isRegistered] at outcome
          cases outcome
      | some page =>
          rw [initSession_of_registered isPhase isRegistered] at outcome
          cases outcome
          exact .inr ⟨page, rfl, rfl, rfl⟩

theorem connection_claimPage (known : number < server.connections.size) (page : Nat) :
    (server.claimPage number page).connection number =
      (server.connection number).withSession
        { server.session number with phase := .initialized page } := by
  unfold claimPage
  rw [connection_exchange, if_pos ⟨rfl, known⟩]
  rfl

theorem socket_claimPage (known : number < server.connections.size) (page : Nat) :
    (server.claimPage number page).socket number = server.socket number := by
  unfold Server.socket
  rw [connection_claimPage known]
  rfl

theorem Reaches.claimPage (reaches : server.Reaches number) (page : Nat) :
    (server.claimPage number page).Reaches number where
  known := (server.size_exchange number _ _).symm ▸ reaches.known
  alive := by
    have alive := reaches.alive
    unfold isAlive session at alive ⊢
    rw [connection_claimPage reaches.known]
    exact alive
  isOpen := (socket_claimPage reaches.known page).symm ▸ reaches.isOpen

/-- A claim leaves a session at rest. -/
theorem AtRest.claimPage (atRest : server.AtRest number) {pid : String} {page : Nat}
    (isRegistered : server.pages.get? pid = some page) :
    (server.claimPage number page).AtRest number := by
  have isConnection := connection_claimPage atRest.reaches.known page
  have size : (server.claimPage number page).pages.pages.size = server.pages.pages.size :=
    PageStore.size_bind server.pages page _
  have socket := socket_claimPage atRest.reaches.known page
  exact
    { reaches := atRest.reaches.claimPage page
      isAttached := socket.symm ▸ atRest.isAttached
      inbox := socket.symm ▸ atRest.inbox
      idle := atRest.idle
      quiet := by
        intro other
        show ((server.pages.bind page _).page other).state.queue = []
        rw [PageStore.page_bind]
        split
        · exact atRest.quiet page
        · exact atRest.quiet other
      registered := fun id other found => size.symm ▸ atRest.registered id other found
      owned := by
        intro other owned
        have isPage : (server.claimPage number page).pageOf number = some page := by
          unfold pageOf session
          rw [isConnection]
          rfl
        cases isPage.symm.trans owned
        exact size.symm ▸ atRest.registered pid page isRegistered
      spares := atRest.spares }

/-! ## The queue after a success -/

theorem queue_of_drained {next : Server} {page : Nat} (owned : server.pageOf number = some page)
    (known : page < server.pages.pages.size)
    (outcome : server.drainPageOf number = (next, .ok ())) : (next.stateOf page).queue = [] := by
  have processed := Page.processed_drain server.eventBound 0 (server.pageNow page)
  unfold drainPageOf at outcome
  rw [owned] at outcome
  dsimp only at outcome
  split at outcome
  · next count isDrained =>
      cases outcome
      have ending := processed.ending
      rw [isDrained] at ending
      rw [stateOf, pages_deliverAll]
      show ((server.pages.put page _).page page).state.queue = []
      rw [PageStore.page_put, if_pos ⟨rfl, known⟩]
      exact ending.2.1
  · cases outcome
  · cases outcome

theorem queue_of_served {next : Server} {page : Nat} {handler : RequestHandler}
    (reaches : server.Reaches request.session) (spares : handler.Spares)
    (owned : server.pageOf request.session = some page) (known : page < server.pages.pages.size)
    (outcome : server.serve handler request = (next, .ok ())) :
    (next.stateOf page).queue = [] := by
  have handled := progress_of_acts reaches (acts_handle server handler request)
    (endSession_not_mem_handleDeeds spares server request)
  unfold serve at outcome
  split at outcome
  · cases outcome
  · next middle isHandled =>
      rw [isHandled] at handled
      let listeners := (middle.session request.session).listeners
      have notified := handled.trans (progress_of_acts handled.reaches
        (acts_notifyAll request listeners middle)
        (endSession_not_mem_notifyDeeds request listeners middle))
      exact queue_of_drained (notified.pageOf.trans owned) (notified.size.symm ▸ known) outcome

/-! ## Requests of a session at rest -/

/-- A server on which a session is bound to a page, if it was not before. -/
structure Binds (number : Nat) (before after : Server) : Prop where
  atRest : after.AtRest number
  journal : after.journal = before.journal
  limits : after.limits = before.limits
  synchronizer : (after.session number).synchronizer = (before.session number).synchronizer
  phase : (after.session number).phase = (before.session number).phase ∨
    ∃ page, (before.session number).phase = .created ∧
      (after.session number).phase = .initialized page

theorem binds_initSession (atRest : server.AtRest number) {pid : String} {bound : Server}
    {isFirst : Bool} (outcome : server.initSession number pid = .ok (bound, isFirst)) :
    Binds number server bound ∧ (bound.pageOf number).isSome := by
  obtain ⟨rfl, page, isPhase⟩ | ⟨page, isCreated, isRegistered, rfl⟩ :=
    bound_of_initSession outcome
  · refine ⟨⟨atRest, rfl, rfl, rfl, .inl rfl⟩, ?_⟩
    rw [pageOf, Session.page?, isPhase]
    rfl
  · have isConnection := connection_claimPage atRest.reaches.known page
    have isSession : (server.claimPage number page).session number =
        { server.session number with phase := .initialized page } :=
      congrArg Connection.session isConnection
    refine ⟨⟨atRest.claimPage isRegistered, rfl, rfl, ?_, .inr ⟨page, isCreated, ?_⟩⟩, ?_⟩
    · rw [isSession]
    · rw [isSession]
    · rw [pageOf, isSession]
      rfl

theorem queue_of_attempted {bound : Server} {isFirst : Bool} {page : Nat}
    (isBound : server.initSession request.session request.pid = .ok (bound, isFirst))
    (atRest : bound.AtRest request.session) (owned : bound.pageOf request.session = some page)
    (succeeds : (server.attempt request).2 = .ok ()) :
    ((server.attempt request).1.stateOf page).queue = [] := by
  unfold attempt at succeeds ⊢
  rw [isBound] at succeeds ⊢
  dsimp only at succeeds ⊢
  cases isHandler : bound.handlers.get? request.requestType with
  | none =>
      rw [isHandler] at succeeds
      cases succeeds
  | some handler =>
      rw [isHandler] at succeeds
      let entered : Server := { bound with current := some request }
      have reaches : entered.Reaches request.session := atRest.reaches.of_same rfl rfl rfl
      have served : entered.serve handler request = ((entered.serve handler request).1, .ok ()) :=
        Prod.ext rfl succeeds
      have isEmpty := queue_of_served reaches (atRest.spares _ _ isHandler) owned
        (atRest.owned page owned) served
      exact isEmpty

/-- A request that a session at rest is bound for, and tried. -/
structure Tried (number : Nat) (before bound : Server) (deeds : List Deed)
    (outcome : Except (List String) Unit) (after : Server) : Prop where
  binds : Binds number before bound
  progress : Progress number bound deeds after
  idle : after.current = none
  unbound : bound.pageOf number = none → deeds = []
  drained : outcome = .ok () → ∀ page, (after.stateOf page).queue = []

theorem tried_attempt (request : Request) (atRest : server.AtRest request.session) :
    ∃ bound, Tried request.session server bound (server.attemptDeeds request)
      (server.attempt request).2 (server.attempt request).1 := by
  have noEnd := endSession_not_mem_attemptDeeds atRest.spares request
  obtain ⟨⟨error, isError, isAttempt⟩, noDeeds⟩ | ⟨bound, isFirst, isBound, acts⟩ :=
    server.acts_attempt request
  · rw [isAttempt, noDeeds]
    exact ⟨server, ⟨atRest, rfl, rfl, rfl, .inl rfl⟩,
      progress_of_acts atRest.reaches (.refl server) List.not_mem_nil, atRest.idle, fun _ => rfl,
      nofun⟩
  · obtain ⟨binds, isSome⟩ := binds_initSession atRest isBound
    obtain ⟨page, owned⟩ := Option.isSome_iff_exists.mp isSome
    have progress := progress_of_acts binds.atRest.reaches acts noEnd
    refine ⟨bound, binds, progress, ?_, ?_, ?_⟩
    · unfold attempt
      rw [isBound]
      dsimp only
      split
      · exact binds.atRest.idle
      · rfl
    · intro isNone
      exact nomatch isNone.symm.trans owned
    · intro succeeds other
      by_cases isOther : bound.pageOf request.session = some other
      · exact queue_of_attempted isBound binds.atRest isOther succeeds
      · rw [stateOf, progress.others other isOther]
        exact binds.atRest.quiet other

/-! ## Whole messages -/

/-- What a message of a session leaves: no request that is being processed, no events, the
frames of what was invoked, and an alert behind them if it failed. The events that it dispatches
are those that were queued on its way and not cleared away. The session may have gained a page. -/
structure Isolated (number : Nat) (before : Server) (deeds : List Deed)
    (outcome : Except (List String) Unit) (after : Server) : Prop where
  idle : after.current = none
  quiet : ∀ page, (after.stateOf page).queue = []
  sameMessage : ∀ event ∈ deeds.filterMap Deed.dispatched?, event ∈ deeds.filterMap Deed.queued?
  inOrder : deeds.filterMap Deed.dispatched? =
    QueueStep.survivors 0 (deeds.filterMap Deed.step?)
  frames : framesOn number after.journal =
    framesOn number before.journal ++ (before.relayAll number deeds).2 ++ alertsOf outcome
  made : ∀ frame ∈ (before.relayAll number deeds).2, ∀ invocation ∈ frame.invocations,
    invocation ∈ (before.session number).synchronizer.pending ∨
      .invoke invocation ∈ deeds.filterMap (Deed.callOn? number)
  limits : after.limits = before.limits
  phase : (after.session number).phase = (before.session number).phase ∨
    ∃ page, (before.session number).phase = .created ∧
      (after.session number).phase = .initialized page

/-- A session at rest, bound for a message, with acts and frames that leave it at rest. -/
theorem isolated_of_progress {bound next : Server} {deeds : List Deed}
    {outcome : Except (List String) Unit} (binds : Binds number server bound)
    (progress : Progress number bound deeds next)
    (unbound : bound.pageOf number = none → Deed.Leads [] deeds [])
    (idle : next.current = none) (quiet : ∀ page, (next.stateOf page).queue = [])
    (alerts : List Entry) (isAlert : framesOn number alerts = alertsOf outcome) :
    Isolated number server deeds outcome (next.record alerts) ∧
      (next.record alerts).AtRest number := by
  have leads : Deed.Leads [] deeds [] := by
    cases owned : bound.pageOf number with
    | none => exact unbound owned
    | some page =>
        have leads := progress.queue page owned (binds.atRest.owned page owned)
        rwa [binds.atRest.quiet, quiet] at leads
  have calls : bound.relayAll number deeds = server.relayAll number deeds := by
    unfold relayAll
    rw [binds.synchronizer]
  refine ⟨⟨idle, quiet, ?_, ?_, ?_, ?_, progress.limits.trans binds.limits, ?_⟩, ?_⟩
  · intro event isDispatched
    obtain waits | isQueued := leads.queued_of_dispatched isDispatched
    · exact absurd waits List.not_mem_nil
    · exact isQueued
  · rw [← List.append_nil (deeds.filterMap Deed.dispatched?)]
    exact leads.survivors
  · show framesOn number (next.journal ++ alerts) = _
    rw [framesOn_append, progress.frames, isAlert, calls, binds.journal]
  · intro frame isFrame invocation isMade
    exact Synchronizer.made_of_performAll (List.mem_flatMap.mpr ⟨frame, isFrame, isMade⟩)
  · have phase : ((next.record alerts).session number).phase = (bound.session number).phase := by
      show (next.session number).phase = _
      rw [progress.session]
      rfl
    rw [phase]
    exact binds.phase
  · exact
      { reaches := progress.reaches.of_same rfl rfl rfl
        isAttached := progress.socket ▸ binds.atRest.isAttached
        inbox := progress.socket ▸ binds.atRest.inbox
        idle := idle
        quiet := quiet
        registered := by
          intro id page isRegistered
          have wasRegistered : bound.pages.get? id = some page := by
            have sameRegistry := progress.registered
            unfold PageStore.get?
            rw [← sameRegistry]
            exact isRegistered
          exact progress.size.symm ▸ binds.atRest.registered id page wasRegistered
        owned := by
          intro page owned
          exact progress.size.symm ▸ binds.atRest.owned page (progress.pageOf.symm.trans owned)
        spares := by
          intro requestType handler isHandler
          exact binds.atRest.spares requestType handler (progress.handlers ▸ isHandler) }

/-- The end of a request that failed: nothing stays queued. -/
theorem acts_clearQueueOf (server : Server) :
    Acts number server (if (server.pageOf number).isSome then [.queue .clear] else [])
      (server.modifyPageOf number PageState.clearQueue) := by
  have clears (live : Page) :
      live.Follows ([QueueCall.clear].map .queue) (live.withState live.state.clearQueue) :=
    .of_calls (.inl ⟨rfl, rfl, rfl⟩) rfl
  unfold modifyPageOf
  cases owned : server.pageOf number with
  | none => exact .refl server
  | some page => exact acts_modifyPage owned clears

theorem queue_clearQueueOf {page : Nat} (owned : server.pageOf number = some page)
    (known : page < server.pages.pages.size) :
    ((server.modifyPageOf number PageState.clearQueue).stateOf page).queue = [] := by
  unfold modifyPageOf
  rw [owned]
  show ((server.pages.modify page _).page page).state.queue = []
  rw [PageStore.page_modify, if_pos ⟨rfl, known⟩]
  rfl

/-- A request that succeeds is processed by the attempt alone. -/
theorem process_of_ok {envelope : Envelope} {next : Server}
    (outcome : server.attempt (server.requestOf number envelope) = (next, .ok ())) :
    server.process number envelope = next ∧
      server.processDeeds (server.requestOf number envelope) =
        server.attemptDeeds (server.requestOf number envelope) := by
  unfold process processDeeds
  dsimp only
  rw [← requestOf, outcome]
  exact ⟨rfl, List.append_nil _⟩

/-- After a failure, the queue is cleared, and the client is told. -/
theorem process_of_error {envelope : Envelope} {next : Server} {chain : List String}
    (outcome : server.attempt (server.requestOf number envelope) = (next, .error chain)) :
    server.process number envelope =
        (next.modifyPageOf number PageState.clearQueue).sendError number chain ∧
      server.processDeeds (server.requestOf number envelope) =
        server.attemptDeeds (server.requestOf number envelope) ++
          if (next.pageOf number).isSome then [.queue .clear] else [] := by
  unfold process processDeeds
  dsimp only
  rw [← requestOf, outcome]
  exact ⟨rfl, rfl⟩

/-- What a request that was processed leaves on a session at rest. -/
theorem isolated_process (atRest : server.AtRest number) (envelope : Envelope) :
    let request := server.requestOf number envelope
    Isolated number server (server.processDeeds request) (server.attempt request).2
        (server.process number envelope) ∧
      (server.process number envelope).AtRest number := by
  intro request
  obtain ⟨bound, binds, progress, idle, unbound, drained⟩ :
      ∃ bound, Tried number server bound (server.attemptDeeds request)
        (server.attempt request).2 (server.attempt request).1 := tried_attempt request atRest
  rcases outcome : server.attempt request with ⟨next, chain | _⟩
  · rw [outcome] at progress idle drained
    obtain ⟨isProcessed, areDeeds⟩ := process_of_error outcome
    let clearing : List Deed := if (next.pageOf number).isSome then [.queue .clear] else []
    have noEnd : .endSession ∉ clearing := by
      unfold clearing
      split <;> simp
    have cleared := progress_of_acts progress.reaches next.acts_clearQueueOf noEnd
    have whole := progress.trans cleared
    rw [isProcessed, areDeeds, sendError_of_isOpen cleared.reaches.isOpen]
    refine isolated_of_progress binds whole ?_ ?_ ?_ _ ?_
    · intro isNone
      have noClearing : clearing = [] := by
        unfold clearing
        rw [progress.pageOf.trans isNone]
        rfl
      show Deed.Leads [] (server.attemptDeeds request ++ clearing) []
      rw [unbound isNone, noClearing]
      exact rfl
    · obtain ⟨pages, isCleared⟩ := next.modifyPageOf_eq number PageState.clearQueue
      rw [isCleared]
      exact idle
    · intro page
      by_cases owned : bound.pageOf number = some page
      · exact queue_clearQueueOf (progress.pageOf.trans owned)
          (progress.size.symm ▸ binds.atRest.owned page owned)
      · rw [stateOf, whole.others page owned]
        exact binds.atRest.quiet page
    · exact framesOn_alert number chain
  · rw [outcome] at progress idle drained
    obtain ⟨isProcessed, areDeeds⟩ := process_of_ok outcome
    have left : Isolated number server (server.attemptDeeds request) (.ok ()) (next.record []) ∧
        (next.record []).AtRest number :=
      isolated_of_progress binds progress (fun isNone => by rw [unbound isNone]; rfl) idle
        (drained rfl) [] rfl
    rw [isProcessed, areDeeds]
    rwa [record_nil] at left

/-- The same for all of a message. -/
theorem isolated_receiveMessage (atRest : server.AtRest number)
    (isWhole : message.IsWhole server.limits.message) :
    Isolated number server (server.messageDeeds number message)
        (server.messageOutcome number message) (server.receiveMessage number message) ∧
      (server.receiveMessage number message).AtRest number := by
  rw [receiveMessage_of_atRest atRest isWhole]
  unfold messageDeeds messageOutcome
  cases server.arrival message with
  | ok envelope => exact isolated_process atRest envelope
  | error error =>
      have nothing : Progress number server [] server :=
        progress_of_acts atRest.reaches (.refl server) List.not_mem_nil
      dsimp only
      rw [sendError_of_isOpen atRest.reaches.isOpen]
      refine isolated_of_progress ⟨atRest, rfl, rfl, rfl, .inl rfl⟩ nothing (fun _ => rfl) atRest.idle
        atRest.quiet _ ?_
      exact framesOn_alert number error.chain

/-! ## Runs of messages -/

theorem atRest_receiveMessages (atRest : server.AtRest number) {messages : List Message}
    (areWhole : ∀ message ∈ messages, message.IsWhole server.limits.message) :
    (server.receiveMessages number messages).AtRest number ∧
      (server.receiveMessages number messages).limits = server.limits := by
  induction messages generalizing server with
  | nil => exact ⟨atRest, rfl⟩
  | cons message rest inductionHypothesis =>
      obtain ⟨isolated, stillAtRest⟩ :=
        isolated_receiveMessage atRest (areWhole message List.mem_cons_self)
      have restWhole : ∀ other ∈ rest, other.IsWhole
          (server.receiveMessage number message).limits.message := by
        rw [isolated.limits]
        exact fun other isOther => areWhole other (List.mem_cons_of_mem _ isOther)
      obtain ⟨last, sameLimits⟩ := inductionHypothesis stillAtRest restWhole
      exact ⟨last, sameLimits.trans isolated.limits⟩

/-- However messages end, with whatever handlers and listeners, each one of them starts on a
session at rest and leaves nothing to the next one. It is heard of by the frames of what was
invoked, and by one alert if it failed anywhere, and it dispatches only events that were queued
on its own way. -/
theorem messages_are_isolated (atRest : server.AtRest number) (messages : List Message)
    (areWhole : ∀ message ∈ messages, message.IsWhole server.limits.message) (message : Message)
    (isWhole : message.IsWhole server.limits.message) :
    let before := server.receiveMessages number messages
    Isolated number before (before.messageDeeds number message)
      (before.messageOutcome number message) (before.receiveMessage number message) := by
  intro before
  obtain ⟨stillAtRest, sameLimits⟩ := atRest_receiveMessages atRest areWhole
  exact (isolated_receiveMessage stillAtRest (sameLimits ▸ isWhole)).1

/-- The handlers of a new server leave sessions alive. -/
theorem spares_new (files : FileSystem) (locator : Locator) (limits : MessageLimits)
    (pageTtl : Nat) (precompile : List String) :
    (new files locator limits pageTtl precompile).Spares := by
  intro requestType handler isHandler
  have isListed := Entries.mem_of_find? ((Entries.find?_ofList (by decide) _).symm.trans isHandler)
  obtain ⟨listed, isListed, isSame⟩ := List.mem_map.mp isListed
  cases isSame
  cases handler with
  | custom requestType respond => simp at isListed
  | _ => exact trivial

theorem Spares.insert (spares : server.Spares) {handler : RequestHandler}
    (isSparing : handler.Spares) :
    { server with
      handlers := server.handlers.insert handler.requestType handler : Server }.Spares := by
  intro requestType other isHandler
  have found := (Dict.get?_insert server.handlers handler.requestType requestType handler).symm.trans
    isHandler
  split at found
  · cases found
    exact isSparing
  · exact spares requestType other found

/-- A handler that queues an event, invokes something and fails, twice. -/
theorem failing_requests_leave_alerts :
    let breaks : Conduct := .queueEvent ⟨"late", "p", .null, none⟩
      (.invoke ⟨"note", none, []⟩ (.fail ["broken"]))
    let handler : RequestHandler := .custom "break" (fun _ => breaks)
    let made := (((new .empty ⟨[]⟩ ⟨64, 64⟩ 300 []).createPage "p" "index").connect "a").1
    let server := { made with handlers := made.handlers.insert "break" handler }
    let message : Message := .text [] "\x7b\"pid\":\"p\",\"type\":\"break\"\x7d"
    let before := server.receiveMessages 0 [message]
    server.AtRest 0 ∧ message.IsWhole server.limits.message ∧
      Isolated 0 before (before.messageDeeds 0 message) (before.messageOutcome 0 message)
        (before.receiveMessage 0 message) ∧
      (framesOn 0 before.journal).length = 2 ∧
      (framesOn 0 (before.receiveMessage 0 message).journal).length = 4 := by
  intro breaks handler made server message before
  have isWhole : message.IsWhole server.limits.message := rfl
  have allSpare : made.Spares := spares_new .empty ⟨[]⟩ ⟨64, 64⟩ 300 []
  have handlerSpares : handler.Spares := fun _ => trivial
  have atRest : server.AtRest 0 :=
    { reaches := ⟨by decide +kernel, by decide +kernel, by decide +kernel⟩
      isAttached := by decide +kernel
      inbox := rfl
      idle := rfl
      quiet := by
        intro page
        show ((PageStore.empty.register (Page.new "p" "index" 0)).page page).state.queue = []
        rw [PageStore.page_register]
        split <;> rfl
      registered := fun id page isRegistered =>
        (PageStore.isLive_empty.register rfl id page isRegistered).1
      owned := nofun
      spares := Spares.insert allSpare handlerSpares }
  have isolated := messages_are_isolated atRest [message]
    (fun other isOther => List.mem_singleton.mp isOther ▸ isWhole) message isWhole
  refine ⟨atRest, isWhole, isolated, ?_, ?_⟩
  · decide +kernel
  · decide +kernel

end Server

end LivePage
