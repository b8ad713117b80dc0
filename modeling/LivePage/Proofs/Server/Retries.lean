import LivePage.Proofs.Server.Initialization

/-!
Contract: the initialization of a page, tried as often as it takes.

Owns:
- attempts, each with the files, blueprints and lifecycle listeners that the server has by then;
- the one alert of each failure, and the one batch of the first success;
- pages are initialized once, however many attempts fail or succeed.

Does not own: when an initialization fails.
-/

namespace LivePage

/-! ## Attempts -/

/-- A request, and what the server has around it by then: its files, the blueprints that it keeps,
and its lifecycle listeners. -/
structure InitAttempt where
  files : FileSystem
  cache : BlueprintCache
  lifecycle : List LifecycleListener
  envelope : Envelope

/-- The request is for the initialization of a page, and the lifecycle listeners only watch. -/
structure InitAttempt.Asks (attempt : InitAttempt) (pid : String) : Prop where
  isInit : attempt.envelope.requestType = RequestHandler.init.requestType
  isPid : attempt.envelope.pid = pid
  watch : ∀ listener ∈ attempt.lifecycle, listener.Watches

namespace Server

variable {server : Server} {number page : Nat} {attempt : InitAttempt}

def around (server : Server) (attempt : InitAttempt) : Server :=
  { server with
    files := attempt.files
    cache := attempt.cache
    lifecycle := attempt.lifecycle }

def tryInit (number : Nat) (server : Server) (attempt : InitAttempt) : Server :=
  (server.around attempt).process number attempt.envelope

def tryInits (number : Nat) (server : Server) (attempts : List InitAttempt) : Server :=
  attempts.foldl (tryInit number) server

/-- How an attempt ends. -/
def initOutcome (number : Nat) (server : Server) (attempt : InitAttempt) :
    Except (List String) Unit :=
  let prepared := server.around attempt
  (prepared.attempt (prepared.requestOf number attempt.envelope)).2

/-- Whether one of several attempts succeeds. -/
def anyInit (number : Nat) : Server → List InitAttempt → Bool
  | _, [] => false
  | server, attempt :: rest =>
      (initOutcome number server attempt).isOk ||
        anyInit number (tryInit number server attempt) rest

/-- An attempt that failed sends an alert, and leaves the page as it was. -/
structure Refused (number page : Nat) (before : Server) (chain : List String) (after : Server) :
    Prop where
  frames : framesOn number after.journal =
    framesOn number before.journal ++ alertsOf (.error chain)
  elsewhere : ∀ other, other ≠ number →
    framesOn other after.journal = framesOn other before.journal
  nothingHeld : (after.session number).synchronizer = .new
  nothingQueued : (after.stateOf page).queue = []
  uninitialized : (after.stateOf page).isInitialized = false
  sameIds : ∀ id, ((after.stateOf page).component? id).isSome =
    ((before.stateOf page).component? id).isSome
  sameChildren : ∀ id, (after.stateOf page).children id = (before.stateOf page).children id

/-- The attempt that succeeds sends one batch at most, which creates the components of the page. -/
structure Made (number page : Nat) (before after : Server) : Prop where
  batch : ∃ invocations,
    framesOn number after.journal =
        framesOn number before.journal ++ (Frame.ofBatch? invocations).toList ∧
      (before.stateOf page).Creates invocations (after.stateOf page)
  elsewhere : ∀ other, other ≠ number →
    framesOn other after.journal = framesOn other before.journal
  nothingHeld : (after.session number).synchronizer = .new
  nothingQueued : (after.stateOf page).queue = []
  initialized : (after.stateOf page).isInitialized = true

theorem Awaits.around (awaits : server.Awaits number page) (attempt : InitAttempt) :
    (server.around attempt).Awaits number page :=
  { awaits with reaches := awaits.reaches.of_same rfl rfl rfl }

/-- The client is told of a failure after the queue of the page was cleared. -/
theorem refuse_eq (isOpen : (server.socket number).isOpen = true)
    (owned : server.pageOf number = some page) (chain : List String) :
    (server.modifyPageOf number PageState.clearQueue).sendError number chain =
      (server.modifyPage page (fun live => live.withState live.state.clearQueue)).record
        [.frame number (.single (.alert (alertText chain) alertTitle alertFlavor))] := by
  have cleared : server.modifyPageOf number PageState.clearQueue =
      server.modifyPage page (fun live => live.withState live.state.clearQueue) := by
    unfold modifyPageOf
    rw [owned]
  rw [cleared]
  exact if_pos isOpen

theorem Leaves.refuse {after : Server} (leaves : Leaves number server [] after)
    (owned : after.pageOf number = some page) (chain : List String) :
    Leaves number server (alertsOf (.error chain))
      ((after.modifyPageOf number PageState.clearQueue).sendError number chain) := by
  let alert : Entry := .frame number (.single (.alert (alertText chain) alertTitle alertFlavor))
  rw [refuse_eq leaves.reaches.isOpen owned]
  refine ⟨leaves.reaches.of_same rfl rfl rfl, leaves.session, leaves.handlers, leaves.eventBound,
    leaves.registered, Array.size_modify.trans leaves.size, ?_, fun other different => ?_⟩
  · show framesOn number (after.journal ++ [alert]) = _
    rw [framesOn_append, leaves.frames, List.append_nil, framesOn_alert]
  · show framesOn other (after.journal ++ [alert]) = _
    rw [framesOn_append, leaves.elsewhere other different]
    simp [framesOn, alert, Ne.symm different]

/-- What an attempt on a page that is not initialized leaves. -/
structure Attempted (number page : Nat) (before : Server) (outcome : Except (List String) Unit)
    (after : Server) : Prop where
  awaits : after.Awaits number page
  owned : after.pageOf number = some page
  idle : after.current = none
  id : (after.stateOf page).id = (before.stateOf page).id
  refused : ∀ chain, outcome = .error chain → Refused number page before chain after
  made : outcome = .ok () → Made number page before after

/-- An attempt that fails leaves the page as it was. -/
theorem attempted_of_error {bound next : Server} {chain : List String}
    (owns : Owns number page server bound)
    (isFresh : (server.stateOf page).isInitialized = false)
    (leaves : Leaves number bound [] next)
    (asBefore : (bound.stateOf page).AsBefore (next.stateOf page)) (idle : next.current = none) :
    Attempted number page server (.error chain)
      ((next.modifyPageOf number PageState.clearQueue).sendError number chain) := by
  let after := (next.modifyPageOf number PageState.clearQueue).sendError number chain
  have owned : next.pageOf number = some page := by
    rw [Server.pageOf, leaves.session]
    exact owns.owned
  have known : page < next.pages.pages.size := leaves.size.symm ▸ owns.awaits.known
  have isRefused := refuse_eq leaves.reaches.isOpen owned chain
  have state : after.stateOf page = (next.stateOf page).clearQueue := by
    show ((next.modifyPageOf number PageState.clearQueue).sendError number chain).stateOf page = _
    rw [isRefused]
    exact stateOf_modifyPage known _
  have refuses : Leaves number bound (alertsOf (.error chain)) after := leaves.refuse owned chain
  have boundState := owns.state
  have apart := asBefore.apart
  have refused : Refused number page server chain after :=
    { frames := by rw [refuses.frames, owns.journal]
      elsewhere := fun other different => by rw [refuses.elsewhere other different, owns.journal]
      nothingHeld := by rw [refuses.session]; exact owns.awaits.settled
      nothingQueued := by rw [state]; rfl
      uninitialized := by
        rw [state]
        exact apart.isInitialized.trans (boundState ▸ isFresh)
      sameIds := fun id => by
        rw [state]
        exact (asBefore.sameIds id).trans (by rw [boundState]; rfl)
      sameChildren := fun id => by
        rw [state]
        exact (asBefore.sameChildren id).trans (by rw [boundState]; rfl) }
  have awaits : after.Awaits number page := by
    refine refuses.awaits owns.awaits owns.owned ?_ refused.nothingQueued ?_
    · rw [state]
      exact asBefore.intact.of_same rfl rfl (Nat.le_refl _) asBefore.intact.alive
    · rw [state]
      exact apart.sink.trans (by rw [boundState]; rfl)
  refine ⟨awaits, ?_, ?_, ?_, ?_, ?_⟩
  · rw [Server.pageOf, refuses.session]
    exact owns.owned
  · rw [isRefused]
    exact idle
  · show (after.stateOf page).id = _
    rw [state]
    exact apart.id.trans (by rw [boundState]; rfl)
  · intro other isError
    cases isError
    exact refused
  · intro isOk
    cases isOk

/-- The attempt that succeeds sends what creates the page. -/
theorem attempted_of_ok {bound next : Server} {invocations : List Invocation}
    (owns : Owns number page server bound)
    (leaves : Leaves number bound (Frame.ofBatch? invocations).toList next)
    (initialized : (bound.stateOf page).Initialized invocations (next.stateOf page))
    (idle : next.current = none) : Attempted number page server (.ok ()) next := by
  have boundState := owns.state
  have quiet : (next.stateOf page).queue = [] := initialized.queue.trans owns.awaits.quiet
  have owned : next.pageOf number = some page := by
    rw [Server.pageOf, leaves.session]
    exact owns.owned
  have made : Made number page server next :=
    { batch := by
        refine ⟨invocations, by rw [leaves.frames, owns.journal], ?_⟩
        have creates := initialized.creates
        rw [boundState] at creates
        exact ⟨creates.once, creates.all, creates.hangs, creates.parentsFirst⟩
      elsewhere := fun other different => by rw [leaves.elsewhere other different, owns.journal]
      nothingHeld := by rw [leaves.session]; exact owns.awaits.settled
      nothingQueued := quiet
      initialized := initialized.isInitialized }
  have isSink : (next.stateOf page).sink = some (.session number) :=
    initialized.sink.trans (owns.awaits.isSink owns.owned)
  refine ⟨leaves.awaits owns.awaits owns.owned initialized.intact quiet isSink, owned, idle, ?_, ?_,
    fun _ => made⟩
  · rw [initialized.id, boundState]
    rfl
  · intro chain isError
    cases isError

/-- A request for the initialization of a page that is not initialized. -/
theorem attempted_tryInit (awaits : server.Awaits number page)
    (asks : attempt.Asks (server.stateOf page).id)
    (isFresh : (server.stateOf page).isInitialized = false) :
    Attempted number page server (server.initOutcome number attempt)
      (server.tryInit number attempt) := by
  let prepared := server.around attempt
  let request := prepared.requestOf number attempt.envelope
  obtain ⟨bound, owns, answers, idle⟩ := answers_attempt (awaits.around attempt) asks.watch
    (rfl : request.session = number) asks.isPid.symm asks.isInit
  have ownsNow : Owns number page server bound :=
    ⟨owns.awaits, owns.owned, owns.state, owns.journal⟩
  show Attempted number page server (prepared.attempt request).2
    (prepared.process number attempt.envelope)
  rcases outcome : prepared.attempt request with ⟨next, chain | _⟩
  · rw [outcome] at answers idle
    obtain ⟨leaves, asBefore⟩ := answers.failed chain rfl
    rw [(process_of_error outcome).1]
    exact attempted_of_error ownsNow isFresh leaves asBefore idle
  · rw [outcome] at answers idle
    obtain ⟨invocations, leaves, initialized⟩ := answers.made rfl
    rw [(process_of_ok outcome).1]
    exact attempted_of_ok ownsNow leaves initialized idle

/-! ## A page that is initialized -/

/-- A bracket that opens and closes with nothing in it leaves no trace. -/
theorem stopQueueing_startQueueing (awaits : server.Awaits number page) :
    (server.startQueueing number).stopQueueing number = server := by
  have started := sends_startQueueing awaits.reaches awaits.settled
  have watch : ∀ listener ∈ ((server.startQueueing number).session number).listeners,
      listener.Watches := by
    rw [started.session]
    exact awaits.watch
  have step : ((server.startQueueing number).session number).synchronizer.stop = (.new, none) := by
    rw [started.session]
    rfl
  unfold stopQueueing releaseHeard
  rw [step, answers_of_watches watch, queueOn_nil]
  have taken : (server.startQueueing number).modifySession number (fun session =>
      session.withSynchronizer .new) = server := by
    unfold startQueueing modifySession
    rw [modifyConnection_modifyConnection]
    refine modifyConnection_of_eq ?_
    show (server.connection number).withSession ((server.session number).withSynchronizer .new) = _
    rw [← awaits.settled]
    rfl
  show (if _ then _ else _) = server
  rw [taken]
  exact ite_self _

/-- A request for the initialization of a page that is initialized leaves entries for the listeners
of the session, and nothing else. -/
theorem tryInit_of_initialized (awaits : server.Awaits number page)
    (owned : server.pageOf number = some page) (idle : server.current = none)
    (asks : attempt.Asks (server.stateOf page).id)
    (isDone : (server.stateOf page).isInitialized = true) :
    server.initOutcome number attempt = .ok () ∧
      ∃ entries, server.tryInit number attempt = (server.around attempt).record entries ∧
        ∀ other, framesOn other entries = [] := by
  let prepared := server.around attempt
  let request := prepared.requestOf number attempt.envelope
  obtain ⟨bound, isFirst, isBound, -, -, same⟩ :=
    owns_initSession (awaits.around attempt) asks.isPid.symm
  cases same owned
  let entered : Server := { prepared with current := some request }
  have enteredAwaits : entered.Awaits number page :=
    { awaits with reaches := awaits.reaches.of_same rfl rfl rfl }
  have handled : entered.handleInit request = (entered, .ok ()) := by
    have nothing : (entered.startQueueing number).initializePage request =
        (entered.startQueueing number, .ok ()) := by
      have opened := enteredAwaits.opened owned asks.watch
      unfold initializePage requirePage
      rw [show request.session = number from rfl, opened.owned]
      exact if_pos isDone
    unfold handleInit
    rw [show request.session = number from rfl, nothing]
    exact congrArg (·, Except.ok ()) (stopQueueing_startQueueing enteredAwaits)
  obtain ⟨entries, isRecord, noFrames⟩ : ∃ entries,
      entered.notifyRequest request = entered.record entries ∧
        ∀ other, framesOn other entries = [] := notifyRequest_eq_record request awaits.watch
  have ownedNow : (entered.record entries).pageOf number = some page := owned
  have served : entered.serve .init request = (entered.record entries, .ok ()) := by
    unfold serve
    rw [show entered.handle .init request = (entered, .ok ()) from handled]
    dsimp only
    rw [isRecord]
    exact drainPageOf_of_quiet ownedNow awaits.bounded awaits.quiet
  have attempted : prepared.attempt request = (prepared.record entries, .ok ()) := by
    have isAttempt : prepared.attempt request = prepared.serveAlone .init request := by
      unfold Server.attempt
      rw [show prepared.initSession request.session request.pid = .ok (prepared, isFirst)
        from isBound]
      dsimp only
      rw [show request.requestType = _ from asks.isInit,
        show prepared.handlers.get? _ = _ from awaits.handler]
    have left : ({ entered.record entries with current := none } : Server) =
        prepared.record entries := by
      rw [← idle]
      rfl
    rw [isAttempt]
    unfold serveAlone
    rw [served]
    exact congrArg (·, Except.ok ()) left
  refine ⟨?_, entries, (process_of_ok attempted).1, noFrames⟩
  show (prepared.attempt request).2 = _
  rw [attempted]

/-! ## Attempts one after another -/

/-- Where a session stands after attempts, of which one has succeeded or none. -/
structure Standing (number page : Nat) (start : Server) (isDone : Bool) (now : Server) : Prop where
  awaits : now.Awaits number page
  idle : now.current = none
  id : (now.stateOf page).id = (start.stateOf page).id
  isInitialized : (now.stateOf page).isInitialized = isDone
  owned : isDone = true → now.pageOf number = some page
  sameIds : isDone = false → ∀ id, ((now.stateOf page).component? id).isSome =
    ((start.stateOf page).component? id).isSome
  sameChildren : isDone = false →
    ∀ id, (now.stateOf page).children id = (start.stateOf page).children id

theorem Standing.tryInit {start : Server} {isDone : Bool}
    (standing : Standing number page start isDone server)
    (asks : attempt.Asks (start.stateOf page).id) :
    Standing number page start (isDone || (server.initOutcome number attempt).isOk)
      (server.tryInit number attempt) := by
  have asksNow : attempt.Asks (server.stateOf page).id := standing.id.symm ▸ asks
  cases isDone with
  | true =>
      obtain ⟨-, entries, isRecord, -⟩ := tryInit_of_initialized standing.awaits
        (standing.owned rfl) standing.idle asksNow standing.isInitialized
      have around := standing.awaits.around attempt
      rw [isRecord, Bool.true_or]
      exact ⟨{ around with reaches := around.reaches.of_same rfl rfl rfl }, standing.idle,
        standing.id, standing.isInitialized, standing.owned, nofun, nofun⟩
  | false =>
      have attempted := attempted_tryInit standing.awaits asksNow standing.isInitialized
      rw [Bool.false_or]
      cases outcome : server.initOutcome number attempt with
      | ok _ =>
          have made := attempted.made outcome
          exact ⟨attempted.awaits, attempted.idle, attempted.id.trans standing.id,
            made.initialized, fun _ => attempted.owned, nofun, nofun⟩
      | error chain =>
          have refused := attempted.refused chain outcome
          exact ⟨attempted.awaits, attempted.idle, attempted.id.trans standing.id,
            refused.uninitialized, nofun,
            fun _ id => (refused.sameIds id).trans (standing.sameIds rfl id),
            fun _ id => (refused.sameChildren id).trans (standing.sameChildren rfl id)⟩

theorem Standing.tryInits {start : Server} {isDone : Bool}
    (standing : Standing number page start isDone server) {attempts : List InitAttempt}
    (ask : ∀ attempt ∈ attempts, attempt.Asks (start.stateOf page).id) :
    Standing number page start (isDone || server.anyInit number attempts)
      (server.tryInits number attempts) := by
  induction attempts generalizing server isDone with
  | nil =>
      rw [anyInit, Bool.or_false]
      exact standing
  | cons attempt rest inductionHypothesis =>
      have next := standing.tryInit (ask attempt List.mem_cons_self)
      rw [anyInit, ← Bool.or_assoc]
      exact inductionHypothesis next
        (fun other isRest => ask other (List.mem_cons_of_mem _ isRest))

/-- Requests for the initialization of the page of a session, whatever has become of files,
blueprints and lifecycle listeners by each of them, come to one initialization. Until one succeeds,
each leaves the page as it was at the start, and is answered with an alert and nothing else. The
first that succeeds sends one batch at most, which creates each component of the page once, parents
before children. All that follow change nothing and send nothing. -/
theorem page_is_initialized_once (awaits : server.Awaits number page)
    (idle : server.current = none) (isFresh : (server.stateOf page).isInitialized = false)
    (earlier : List InitAttempt) (attempt : InitAttempt)
    (ask : ∀ each ∈ earlier ++ [attempt], each.Asks (server.stateOf page).id) :
    let before := server.tryInits number earlier
    let outcome := before.initOutcome number attempt
    let after := before.tryInit number attempt
    (server.anyInit number earlier = false →
        (∀ id, ((before.stateOf page).component? id).isSome =
            ((server.stateOf page).component? id).isSome) ∧
          (∀ id, (before.stateOf page).children id = (server.stateOf page).children id) ∧
          (∀ chain, outcome = .error chain → Refused number page before chain after) ∧
          (outcome = .ok () → Made number page before after)) ∧
      (server.anyInit number earlier = true →
        outcome = .ok () ∧
          ∃ entries, after = (before.around attempt).record entries ∧
            ∀ other, framesOn other entries = []) := by
  intro before outcome after
  have start : Standing number page server false server :=
    ⟨awaits, idle, rfl, isFresh, nofun, fun _ _ => rfl, fun _ _ => rfl⟩
  have standing : Standing number page server (server.anyInit number earlier) before :=
    start.tryInits (fun each isEarlier => ask each (List.mem_append_left _ isEarlier))
  have asks : attempt.Asks (before.stateOf page).id :=
    standing.id.symm ▸ ask attempt (List.mem_append_right _ (List.mem_singleton_self _))
  refine ⟨fun noneBefore => ?_, fun oneBefore => ?_⟩
  · rw [noneBefore] at standing
    have attempted := attempted_tryInit standing.awaits asks standing.isInitialized
    exact ⟨standing.sameIds rfl, standing.sameChildren rfl, attempted.refused, attempted.made⟩
  · rw [oneBefore] at standing
    exact tryInit_of_initialized standing.awaits (standing.owned rfl) standing.idle asks
      standing.isInitialized

/-- A page that is made on the second request, after a first one without a proper account of the
browser, and asked for again. No file can be below the root, so that the page is its own markup. -/
theorem page_is_made_on_second_request :
    let server := (((new .empty ⟨["\x00"]⟩ .standard 300 []).createPage "p"
      "<fsp><div><span/></div></fsp>").connect "a").1
    let attempt (data : Dict Json) : InitAttempt :=
      ⟨.empty, server.cache, [], "p", RequestHandler.init.requestType, data, none⟩
    let wrong := attempt (Dict.ofList [("browser", .str "unknown")])
    let right := attempt .empty
    let before := server.tryInits 0 [wrong]
    let after := server.tryInits 0 [wrong, right]
    server.Awaits 0 0 ∧ server.current = none ∧ (server.stateOf 0).isInitialized = false ∧
      (∀ each ∈ [wrong, right, wrong], each.Asks (server.stateOf 0).id) ∧
      Made 0 0 before after ∧
      (∃ entries, after.tryInit 0 wrong = (after.around wrong).record entries ∧
        ∀ other, framesOn other entries = []) ∧
      (framesOn 0 before.journal).length = 1 ∧ (framesOn 0 after.journal).length = 2 := by
  intro server attempt wrong right before after
  have awaits : server.Awaits 0 0 :=
    { reaches := ⟨by decide +kernel, by decide +kernel, by decide +kernel⟩
      numbered := rfl
      settled := rfl
      watch := fun _ isListener => absurd isListener List.not_mem_nil
      handler := rfl
      bounded := by decide
      known := by decide +kernel
      intact := PageState.intact_new "p" "<fsp><div><span/></div></fsp>" 0
      quiet := rfl
      isSink := fun owned => absurd owned (by decide +kernel)
      claims := .inr ⟨rfl, rfl⟩ }
  have asks (data : Dict Json) : (attempt data).Asks (server.stateOf 0).id :=
    ⟨rfl, rfl, fun _ isListener => absurd isListener List.not_mem_nil⟩
  have ask : ∀ each ∈ [wrong, right, wrong], each.Asks (server.stateOf 0).id := by
    intro each isEach
    simp only [List.mem_cons, List.not_mem_nil, or_false] at isEach
    rcases isEach with rfl | rfl | rfl <;> exact asks _
  have idle : server.current = none := rfl
  have isFresh : (server.stateOf 0).isInitialized = false := by decide +kernel
  have noneBefore : server.anyInit 0 [wrong] = false := by decide +kernel
  have oneBefore : server.anyInit 0 [wrong, right] = true := by decide +kernel
  have isOk : before.initOutcome 0 right = .ok () := by
    have succeeds : (before.initOutcome 0 right).isOk = true := by decide +kernel
    cases outcome : before.initOutcome 0 right with
    | ok _ => rfl
    | error chain =>
        rw [outcome] at succeeds
        cases succeeds
  have second := page_is_initialized_once awaits idle isFresh [wrong] right
    (fun each isEach => ask each (List.mem_append_left [wrong] isEach))
  have third := page_is_initialized_once awaits idle isFresh [wrong, right] wrong ask
  have isNext : after = before.tryInit 0 right := by
    show server.tryInits 0 [wrong, right] = (server.tryInits 0 [wrong]).tryInit 0 right
    simp only [tryInits, List.foldl_cons, List.foldl_nil]
  have made : Made 0 0 before after := by
    rw [isNext]
    exact (second.1 noneBefore).2.2.2 isOk
  have unchanged : ∃ entries, after.tryInit 0 wrong = (after.around wrong).record entries ∧
      ∀ other, framesOn other entries = [] := (third.2 oneBefore).2
  have oneFrame : (framesOn 0 before.journal).length = 1 := by decide +kernel
  have twoFrames : (framesOn 0 after.journal).length = 2 := by decide +kernel
  exact ⟨awaits, idle, isFresh, ask, made, unchanged, oneFrame, twoFrames⟩

end Server

end LivePage
