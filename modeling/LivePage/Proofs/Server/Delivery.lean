import LivePage.Proofs.Session.Queueing
import LivePage.Server.Lifetime

/-!
Contract: what a session sends to its client.

Owns:
- look-up of connections after changes to one of them;
- the entries that one frame leaves in the journal, and what can be read off the journal;
- whatever is asked of a session's synchronizer, invocations leave in the order in which
  they were made, and every listener is told of them in that order.

Does not own: who makes invocations, and sockets that are closed.
-/

namespace LivePage

open SynchronizerCall

/-! ## The journal -/

/-- The frames that were sent on a connection. -/
def framesOn (number : Nat) (entries : List Entry) : List Frame :=
  entries.filterMap (fun
    | .frame connection frame => if connection = number then some frame else none
    | _ => none)

/-- The invocations that were sent on a connection, in the order of the frames. -/
def sentOn (number : Nat) (entries : List Entry) : List Invocation :=
  (framesOn number entries).flatMap Frame.invocations

/-- The invocations that a session listener was told of. -/
def toldTo (listener : Nat) (entries : List Entry) : List Invocation :=
  entries.filterMap (fun
    | .invocation told invocation => if told.number = listener then some invocation else none
    | _ => none)

/-- What a frame leaves in the journal: itself, and what the listeners are told. -/
def frameEntries (number : Nat) (listeners : List SessionListener) (frame : Frame) : List Entry :=
  .frame number frame :: Server.invocationEntries listeners frame.invocations

/-- How often a listener is registered. -/
def registrations (listener : Nat) (listeners : List SessionListener) : Nat :=
  listeners.countP (fun registered => registered.number = listener)

theorem framesOn_append (number : Nat) (earlier later : List Entry) :
    framesOn number (earlier ++ later) = framesOn number earlier ++ framesOn number later :=
  List.filterMap_append

/-- Entries that are no frames. -/
theorem framesOn_map {α : Type} (number : Nat) {entry : α → Entry}
    (noFrame : ∀ item, framesOn number [entry item] = []) (items : List α) :
    framesOn number (items.map entry) = [] := by
  induction items with
  | nil => rfl
  | cons item rest inductionHypothesis =>
      show framesOn number ([entry item] ++ rest.map entry) = []
      rw [framesOn_append, noFrame, inductionHypothesis]
      rfl

theorem toldTo_append (listener : Nat) (earlier later : List Entry) :
    toldTo listener (earlier ++ later) = toldTo listener earlier ++ toldTo listener later :=
  List.filterMap_append

theorem framesOn_invocationEntries (number : Nat) (listeners : List SessionListener)
    (invocations : List Invocation) :
    framesOn number (Server.invocationEntries listeners invocations) = [] := by
  induction invocations with
  | nil => rfl
  | cons invocation rest inductionHypothesis =>
      unfold Server.invocationEntries at inductionHypothesis ⊢
      rw [List.flatMap_cons, framesOn_append, inductionHypothesis,
        framesOn_map number (fun _ => rfl)]
      rfl

theorem framesOn_frameEntries (number : Nat) (listeners : List SessionListener)
    (frames : List Frame) :
    framesOn number (frames.flatMap (frameEntries number listeners)) = frames := by
  induction frames with
  | nil => rfl
  | cons frame rest inductionHypothesis =>
      rw [List.flatMap_cons, framesOn_append, inductionHypothesis]
      have first : framesOn number (frameEntries number listeners frame) = [frame] := by
        have others := framesOn_invocationEntries number listeners frame.invocations
        simp only [framesOn] at others
        simp [framesOn, frameEntries, others]
      rw [first]
      rfl

/-- Of one invocation, a listener is told as often as it is registered. -/
theorem toldTo_map (listener : Nat) (listeners : List SessionListener) (invocation : Invocation) :
    toldTo listener (listeners.map (fun told => Entry.invocation told invocation)) =
      List.replicate (registrations listener listeners) invocation := by
  induction listeners with
  | nil => rfl
  | cons first rest inductionHypothesis =>
      simp only [toldTo, registrations] at inductionHypothesis ⊢
      rw [List.map_cons, List.filterMap_cons, inductionHypothesis, List.countP_cons]
      by_cases isListener : first.number = listener
      · simp [isListener, List.replicate_succ]
      · simp [isListener]

theorem toldTo_invocationEntries (listener : Nat) (listeners : List SessionListener)
    (invocations : List Invocation) :
    toldTo listener (Server.invocationEntries listeners invocations) =
      invocations.flatMap (List.replicate (registrations listener listeners)) := by
  induction invocations with
  | nil => rfl
  | cons invocation rest inductionHypothesis =>
      have first := toldTo_map listener listeners invocation
      unfold Server.invocationEntries at inductionHypothesis ⊢
      rw [List.flatMap_cons, toldTo_append, first, inductionHypothesis, List.flatMap_cons]

theorem toldTo_frameEntries (listener number : Nat) (listeners : List SessionListener)
    (frames : List Frame) :
    toldTo listener (frames.flatMap (frameEntries number listeners)) =
      (frames.flatMap Frame.invocations).flatMap
        (List.replicate (registrations listener listeners)) := by
  induction frames with
  | nil => rfl
  | cons frame rest inductionHypothesis =>
      rw [List.flatMap_cons, toldTo_append, inductionHypothesis, List.flatMap_cons,
        List.flatMap_append]
      congr 1
      exact toldTo_invocationEntries listener listeners frame.invocations

namespace Server

variable {server : Server} {number other : Nat}

/-! ## Connections after a change -/

theorem connection_modifyConnection (known : number < server.connections.size)
    (change : Connection → Connection) :
    (server.modifyConnection number change).connection number =
      change (server.connection number) := by
  simp [connection, modifyConnection, Array.getElem_modify, known]

theorem connection_modifyConnection_of_ne (different : other ≠ number)
    (change : Connection → Connection) :
    (server.modifyConnection number change).connection other = server.connection other := by
  simp [connection, modifyConnection, Array.getElem?_modify, Ne.symm different]

theorem modifyConnection_modifyConnection (server : Server) (number : Nat)
    (first second : Connection → Connection) :
    (server.modifyConnection number first).modifyConnection number second =
      server.modifyConnection number (fun connection => second (first connection)) := by
  have same : (server.connections.modify number first).modify number second =
      server.connections.modify number (fun connection => second (first connection)) := by
    apply Array.ext
    · simp
    · intro index _ _
      simp only [Array.getElem_modify]
      split <;> rfl
  simp [modifyConnection, same]

theorem modifyConnection_of_eq {change : Connection → Connection}
    (same : change (server.connection number) = server.connection number) :
    server.modifyConnection number change = server := by
  have unchanged : server.connections.modify number change = server.connections := by
    apply Array.ext
    · simp
    · intro index _ known
      rw [Array.getElem_modify]
      split
      · next isNumber =>
          subst isNumber
          simpa [connection, known] using same
      · rfl
  simp [modifyConnection, unchanged]

theorem modifyConnection_congr {first second : Connection → Connection}
    (same : first (server.connection number) = second (server.connection number)) :
    server.modifyConnection number first = server.modifyConnection number second := by
  have sameAll : server.connections.modify number first =
      server.connections.modify number second := by
    apply Array.ext
    · simp
    · intro index _ known
      have isKnown : index < server.connections.size := by simpa using known
      simp only [Array.getElem_modify]
      split
      · next isNumber =>
          subst isNumber
          simpa [connection, isKnown] using same
      · rfl
  simp [modifyConnection, sameAll]

theorem session_modifySession (known : number < server.connections.size)
    (change : Session → Session) :
    (server.modifySession number change).session number = change (server.session number) := by
  rw [session, modifySession, connection_modifyConnection known]
  rfl

theorem socket_modifySession (known : number < server.connections.size)
    (change : Session → Session) :
    (server.modifySession number change).socket number = server.socket number := by
  rw [socket, modifySession, connection_modifyConnection known]
  rfl

theorem isAlive_modifySession (known : number < server.connections.size)
    {change : Session → Session} (sameId : (change (server.session number)).id =
      (server.session number).id) :
    (server.modifySession number change).isAlive number = server.isAlive number := by
  unfold isAlive
  rw [session_modifySession known, sameId, modifySession, connection_modifyConnection known]
  rfl

/-! ## A session that reaches its client -/

/-- A live session with an open socket. -/
structure Reaches (server : Server) (number : Nat) : Prop where
  known : number < server.connections.size
  alive : server.isAlive number = true
  isOpen : (server.socket number).isOpen = true

/-- What is asked of the synchronizer of a session. -/
def synchronize (server : Server) (number : Nat) : SynchronizerCall → Server
  | .start => server.startQueueing number
  | .stop => server.stopQueueing number
  | .clear => server.clearQueued number
  | .invoke invocation => server.invoke number invocation

def synchronizeAll (server : Server) (number : Nat) (calls : List SynchronizerCall) : Server :=
  calls.foldl (fun server call => server.synchronize number call) server

/-- One state of a server after another, between which only the synchronizer of a session was
used and frames went out on its connection. -/
structure Sends (before : Server) (number : Nat) (synchronizer : Synchronizer)
    (frames : List Frame) (after : Server) : Prop where
  reaches : after.Reaches number
  session : after.session number = (before.session number).withSynchronizer synchronizer
  journal : after.journal =
    before.journal ++ frames.flatMap (frameEntries number (before.session number).listeners)

theorem sends_modifySession (reaches : server.Reaches number) (change : Session → Session)
    {synchronizer : Synchronizer}
    (changed : change (server.session number) =
      (server.session number).withSynchronizer synchronizer) :
    server.Sends number synchronizer [] (server.modifySession number change) where
  reaches :=
    { known := by
        have known := reaches.known
        simpa [modifySession, modifyConnection] using known
      alive := by
        rw [isAlive_modifySession reaches.known (by rw [changed]; rfl)]
        exact reaches.alive
      isOpen := by
        rw [socket_modifySession reaches.known]
        exact reaches.isOpen }
  session := (session_modifySession reaches.known change).trans changed
  journal := (List.append_nil _).symm

theorem Sends.send {before : Server} {synchronizer : Synchronizer}
    (sends : before.Sends number synchronizer [] server) (frame : Frame) :
    before.Sends number synchronizer [frame] (server.send number frame) := by
  have isSent : server.send number frame =
      server.record (frameEntries number (server.session number).listeners frame) := by
    unfold Server.send
    rw [if_pos sends.reaches.isOpen]
    rfl
  rw [isSent]
  refine ⟨⟨sends.reaches.known, sends.reaches.alive, sends.reaches.isOpen⟩, sends.session, ?_⟩
  show server.journal ++ frameEntries number (server.session number).listeners frame = _
  rw [sends.journal, sends.session]
  simp [Session.withSynchronizer]

/-- Taking over a step of the synchronizer sends what the step lets out. -/
theorem sends_release (reaches : server.Reaches number) (step : Synchronizer × Option Frame) :
    server.Sends number step.1 step.2.toList (server.release number step) := by
  obtain ⟨synchronizer, frame⟩ := step
  have taken := sends_modifySession reaches
    (fun session => session.withSynchronizer synchronizer) rfl
  unfold release
  dsimp only
  rw [if_pos taken.reaches.alive]
  cases frame with
  | none => exact taken
  | some frame => exact taken.send frame

/-- What happens to a page concerns no session. -/
theorem modifyPageOf_eq (server : Server) (number : Nat) (change : PageState → PageState) :
    ∃ pages, server.modifyPageOf number change = { server with pages := pages } := by
  unfold modifyPageOf
  split
  · exact ⟨server.pages, rfl⟩
  · exact ⟨_, rfl⟩

theorem session_queueOn (server : Server) (number other : Nat) (events : List Event) :
    (server.queueOn number events).session other = server.session other := by
  obtain ⟨pages, isQueued⟩ := modifyPageOf_eq server number (fun page => page.queueAll events)
  rw [queueOn, isQueued]
  rfl

/-- On a page that goes to its own session, an invocation is one on the session. -/
theorem invokeOnPage_eq_invoke {page : Nat} (owned : server.pageOf number = some page)
    (isSink : (server.pages.page page).state.sink = some (.session number))
    (invocation : Invocation) :
    server.invokeOnPage number invocation = server.invoke number invocation := by
  let step := (server.session number).synchronizer.invoke invocation
  have heard : server.echoes [⟨.session number, invocation⟩] = server.answers number step.2 :=
    List.append_nil _
  unfold invokeOnPage PageState.emit
  rw [owned]
  dsimp only
  rw [isSink]
  dsimp only
  rw [heard]
  show (server.queueOn number (server.answers number step.2)).release number
    (((server.queueOn number _).session number).synchronizer.invoke invocation) = _
  rw [session_queueOn]
  rfl

theorem sends_releaseHeard (reaches : server.Reaches number) (step : Synchronizer × Option Frame) :
    server.Sends number step.1 step.2.toList (server.releaseHeard number step) := by
  obtain ⟨pages, isQueued⟩ := modifyPageOf_eq server number
    (fun page => page.queueAll (server.answers number step.2))
  have known : ({ server with pages := pages } : Server).Reaches number :=
    ⟨reaches.known, reaches.alive, reaches.isOpen⟩
  have sends := sends_release known step
  unfold releaseHeard queueOn
  rw [isQueued]
  exact ⟨sends.reaches, sends.session, sends.journal⟩

theorem sends_synchronize (reaches : server.Reaches number) (call : SynchronizerCall) :
    server.Sends number ((server.session number).synchronizer.perform call).1
      ((server.session number).synchronizer.perform call).2.toList
      (server.synchronize number call) := by
  cases call with
  | start =>
      exact sends_modifySession reaches
        (fun session => session.withSynchronizer session.synchronizer.start) rfl
  | stop => exact sends_releaseHeard reaches (server.session number).synchronizer.stop
  | clear =>
      exact sends_modifySession reaches
        (fun session => session.withSynchronizer session.synchronizer.clear) rfl
  | invoke invocation =>
      exact sends_releaseHeard reaches ((server.session number).synchronizer.invoke invocation)

theorem Sends.trans {first second third : Server} {middle last : Synchronizer}
    {earlier later : List Frame} (before : first.Sends number middle earlier second)
    (after : second.Sends number last later third) :
    first.Sends number last (earlier ++ later) third where
  reaches := after.reaches
  session := by
    rw [after.session, before.session]
    rfl
  journal := by
    rw [after.journal, before.journal, before.session, List.flatMap_append, List.append_assoc]
    rfl

theorem sends_synchronizeAll (reaches : server.Reaches number) (calls : List SynchronizerCall) :
    server.Sends number ((server.session number).synchronizer.performAll calls).1
      ((server.session number).synchronizer.performAll calls).2
      (server.synchronizeAll number calls) := by
  induction calls generalizing server with
  | nil => exact ⟨reaches, rfl, (List.append_nil _).symm⟩
  | cons call rest inductionHypothesis =>
      have first := sends_synchronize reaches call
      have others := inductionHypothesis first.reaches
      rw [first.session] at others
      exact first.trans others

/-- Whatever is asked of the synchronizer of a live session, what its client has been sent and
what is still pending are the invocations in the order in which they were made, without those
that were pending at a clear. No frame is sent while a bracket is open, nothing is pending
outside of brackets, and the last bracket that closes sends what is pending as one batch. Each
listener is told of each invocation that was sent, once and in that order, also if others fail. -/
theorem invocations_leave_in_order (reaches : server.Reaches number)
    (isNew : (server.session number).synchronizer = .new) (calls : List SynchronizerCall) :
    let next := server.synchronizeAll number calls
    let synchronizer := (next.session number).synchronizer
    ∃ entries, next.journal = server.journal ++ entries ∧
      sentOn number entries ++ synchronizer.pending = survivors 0 calls ∧
      (∀ listener, toldTo listener entries =
        (sentOn number entries).flatMap
          (List.replicate (registrations listener (server.session number).listeners))) ∧
      survivors 0 (calls ++ [.clear]) ++ synchronizer.pending = survivors 0 calls ∧
      synchronizer.depth = depthAfter calls ∧
      (synchronizer.depth = 0 → synchronizer.pending = []) ∧
      (∀ call, 0 < depthAfter (calls ++ [call]) →
        (next.synchronize number call).journal = next.journal) ∧
      (synchronizer.depth = 1 →
        framesOn number (next.synchronize number .stop).journal =
            framesOn number next.journal ++ (Frame.ofBatch? synchronizer.pending).toList ∧
          ((next.synchronize number .stop).session number).synchronizer = .new) := by
  intro next synchronizer
  have sends := sends_synchronizeAll reaches calls
  rw [isNew] at sends
  have isSynchronizer : synchronizer = (Synchronizer.new.performAll calls).1 := by
    show (next.session number).synchronizer = _
    rw [sends.session]
    rfl
  have hasDepth : synchronizer.depth = depthAfter calls := by
    rw [isSynchronizer, Synchronizer.depth_performAll]
    rfl
  refine ⟨_, sends.journal, ?_, ?_, ?_, hasDepth, ?_, ?_, ?_⟩
  · rw [sentOn, framesOn_frameEntries, isSynchronizer]
    exact Synchronizer.sent_append_pending_new calls
  · intro listener
    rw [sentOn, framesOn_frameEntries]
    exact toldTo_frameEntries listener number _ _
  · rw [isSynchronizer]
    exact Synchronizer.survivors_clear calls
  · rw [isSynchronizer]
    exact Synchronizer.settled_performAll Synchronizer.settled_new calls
  · intro call isOpen
    rw [depthAfter_append_singleton, ← hasDepth] at isOpen
    have step := sends_synchronize sends.reaches call
    have nothing : (synchronizer.perform call).2 = none := Synchronizer.perform_eq_none isOpen
    rw [step.journal, show (next.session number).synchronizer = synchronizer from rfl, nothing]
    exact List.append_nil _
  · intro isOne
    have step := sends_synchronize sends.reaches .stop
    have released := Synchronizer.perform_stop_of_one isOne
    refine ⟨?_, ?_⟩
    · rw [step.journal, framesOn_append, framesOn_frameEntries,
        show (next.session number).synchronizer = synchronizer from rfl, released]
    · rw [step.session]
      show (synchronizer.stop).1 = .new
      unfold Synchronizer.stop
      rw [isOne]
      rfl

/-- Of four invocations, one of which is cleared, three reach the client, and both listeners
are told of them although the first one fails. -/
theorem cleared_invocation_is_left_out :
    let server := ((new .empty ⟨[]⟩ .standard 300 []).connect "a").1.modifySession 0
      (fun session => (session.addListener (.watching 1 "log" true [])).addListener
        (.watching 2 "count" false []))
    let calls : List SynchronizerCall := [.invoke (.onClient "first" []), .start, .start,
      .invoke (.onClient "lost" []), .clear, .invoke (.onClient "second" []), .stop,
      .invoke (.onClient "third" []), .stop, .stop]
    let sent : List Invocation := [.onClient "first" [], .onClient "second" [], .onClient "third" []]
    server.Reaches 0 ∧ (server.session 0).synchronizer = .new ∧
      ∃ entries, (server.synchronizeAll 0 calls).journal = server.journal ++ entries ∧
        sentOn 0 entries = sent ∧ toldTo 1 entries = sent ∧ toldTo 2 entries = sent := by
  intro server calls sent
  have reaches : server.Reaches 0 := ⟨by decide +kernel, by decide +kernel, by decide +kernel⟩
  have isNew : (server.session 0).synchronizer = .new := rfl
  obtain ⟨entries, areEntries, inOrder, told, -, hasDepth, settled, -⟩ :=
    invocations_leave_in_order reaches isNew calls
  have isSent : sentOn 0 entries = sent := by
    rw [settled hasDepth, List.append_nil] at inOrder
    exact inOrder
  refine ⟨reaches, isNew, entries, areEntries, isSent, ?_, ?_⟩
  · rw [told 1, isSent]
    rfl
  · rw [told 2, isSent]
    rfl

end Server

end LivePage
