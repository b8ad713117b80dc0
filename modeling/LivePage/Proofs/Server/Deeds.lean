import LivePage.Proofs.Server.RequestTurn

/-!
Contract: what is done while a request is served, act by act.

Owns:
- deeds: calls to synchronizers and to the queue of a session's page, dispatches of events,
  and the end of the session;
- what deeds make of a queue;
- the acts by which a server does its deeds, and acts one after another.

Does not own: which deeds a request consists of.
-/

namespace LivePage

open QueueStep

/-! ## Deeds -/

/-- Something that is done while a request is served. -/
inductive Deed where
  /-- The synchronizer of a session is called. -/
  | call (session : Nat) (call : SynchronizerCall)
  /-- The queue of the session's page is called. -/
  | queue (call : QueueCall)
  /-- The first event of the queue is taken off and dispatched. -/
  | dispatch (event : Event)
  | endSession

namespace Deed

/-- What a deed asks of the synchronizer of a session. -/
def callOn? (number : Nat) : Deed → Option SynchronizerCall
  | .call session asked => if session = number then some asked else none
  | _ => none

/-- What happens to the queue of the page. -/
def step? : Deed → Option QueueStep
  | .queue asked => some (.called asked)
  | .dispatch _ => some .taken
  | _ => none

def queued? : Deed → Option Event
  | .queue (.queue event) => some event
  | _ => none

def dispatched? : Deed → Option Event
  | .dispatch event => some event
  | _ => none

/-- A deed that concerns nothing but the queue. -/
def IsOnQueue : Deed → Prop
  | .queue _ => True
  | .dispatch _ => True
  | _ => False

theorem isOnQueue_of_mem_queue {calls : List QueueCall} :
    ∀ deed ∈ calls.map Deed.queue, deed.IsOnQueue := by
  intro deed isDeed
  obtain ⟨asked, -, rfl⟩ := List.mem_map.mp isDeed
  exact trivial

/-- On the queue, no synchronizer is called. -/
theorem callsOn_eq_nil {deeds : List Deed} (onQueue : ∀ deed ∈ deeds, deed.IsOnQueue)
    (number : Nat) : deeds.filterMap (callOn? number) = [] := by
  refine List.filterMap_eq_nil_iff.mpr (fun deed isDeed => ?_)
  cases deed with
  | call session asked => exact (onQueue _ isDeed).elim
  | queue asked => rfl
  | dispatch event => rfl
  | endSession => rfl

/-- Where an effect of a page goes. -/
def ofEffect? : PageEffect → Option Deed
  | .emission ⟨.session number, invocation⟩ => some (.call number (.invoke invocation))
  | _ => none

def ofEffects (effects : List PageEffect) : List Deed :=
  effects.filterMap ofEffect?

theorem endSession_not_mem_ofEffects (effects : List PageEffect) :
    .endSession ∉ ofEffects effects := by
  intro isDeed
  obtain ⟨effect, -, isEnd⟩ := List.mem_filterMap.mp isDeed
  match effect with
  | .note _ => cases isEnd
  | .emission ⟨.observer, _⟩ => cases isEnd
  | .emission ⟨.session _, _⟩ => cases isEnd

/-- Events are queued one after another. -/
def queueAll (events : List Event) : List Deed :=
  (events.map QueueCall.queue).map .queue

theorem endSession_not_mem_queue (calls : List QueueCall) :
    .endSession ∉ calls.map Deed.queue := by
  intro isDeed
  obtain ⟨asked, -, isEnd⟩ := List.mem_map.mp isDeed
  cases isEnd

/-- What becomes of a queue. Only its first event can be dispatched. -/
def Leads : List Event → List Deed → List Event → Prop
  | events, [], left => left = events
  | events, .queue asked :: rest, left => Leads (asked.perform events) rest left
  | events, .dispatch event :: rest, left =>
      ∃ others, events = event :: others ∧ Leads others rest left
  | events, .call _ _ :: rest, left => Leads events rest left
  | events, .endSession :: rest, left => Leads events rest left

theorem Leads.append {first second third : List Event} {earlier later : List Deed}
    (before : Leads first earlier second) (after : Leads second later third) :
    Leads first (earlier ++ later) third := by
  induction earlier generalizing first with
  | nil =>
      subst before
      exact after
  | cons deed rest inductionHypothesis =>
      cases deed with
      | call session asked => exact inductionHypothesis before
      | queue asked => exact inductionHypothesis before
      | dispatch event =>
          obtain ⟨others, isQueue, leads⟩ := before
          exact ⟨others, isQueue, inductionHypothesis leads⟩
      | endSession => exact inductionHypothesis before

theorem leads_queue (events : List Event) (calls : List QueueCall) :
    Leads events (calls.map .queue) (calls.foldl QueueCall.perform events) := by
  induction calls generalizing events with
  | nil => exact rfl
  | cons asked rest inductionHypothesis => exact inductionHypothesis (asked.perform events)

theorem leads_queueAll (waiting events : List Event) :
    Leads waiting (queueAll events) (waiting ++ events) :=
  Page.perform_queue waiting events ▸ leads_queue waiting (events.map .queue)

/-- The events that were dispatched, with those that are left, are those that were queued and not
cleared away. -/
theorem Leads.survivors {events left : List Event} {deeds : List Deed}
    (leads : Leads events deeds left) :
    deeds.filterMap dispatched? ++ left =
      QueueStep.survivors 0 (events.map queued ++ deeds.filterMap step?) := by
  induction deeds generalizing events with
  | nil =>
      subst leads
      rw [List.filterMap_nil, List.filterMap_nil, List.append_nil, survivors_map_queued]
      rfl
  | cons deed rest inductionHypothesis =>
      cases deed with
      | call session asked => exact inductionHypothesis leads
      | queue asked =>
          have called := survivors_called events [asked] (rest.filterMap step?)
          exact (inductionHypothesis leads).trans called.symm
      | dispatch event =>
          obtain ⟨others, rfl, leads⟩ := leads
          have taken := survivors_taken event others (rest.filterMap step?)
          exact (congrArg (List.cons event) (inductionHypothesis leads)).trans taken.symm
      | endSession => exact inductionHypothesis leads

/-- What is dispatched had been waiting, or was queued before. -/
theorem Leads.queued_of_dispatched {events left : List Event} {deeds : List Deed}
    (leads : Leads events deeds left) {event : Event}
    (isDispatched : event ∈ deeds.filterMap dispatched?) :
    event ∈ events ∨ event ∈ deeds.filterMap queued? := by
  induction deeds generalizing events with
  | nil => exact absurd isDispatched List.not_mem_nil
  | cons deed rest inductionHypothesis =>
      cases deed with
      | call session asked => exact inductionHypothesis leads isDispatched
      | queue asked =>
          obtain waits | isQueued := inductionHypothesis leads isDispatched
          · cases asked with
            | queue fresh =>
                obtain waits | isFresh := List.mem_append.mp waits
                · exact .inl waits
                · rw [List.mem_singleton.mp isFresh]
                  exact .inr List.mem_cons_self
            | clear => exact absurd waits List.not_mem_nil
          · cases asked with
            | queue fresh => exact .inr (List.mem_cons_of_mem _ isQueued)
            | clear => exact .inr isQueued
      | dispatch first =>
          obtain ⟨others, rfl, leads⟩ := leads
          obtain isFirst | isLater := List.mem_cons.mp isDispatched
          · exact .inl (isFirst ▸ List.mem_cons_self)
          · exact (inductionHypothesis leads isLater).imp_left (List.mem_cons_of_mem _)
      | endSession => exact inductionHypothesis leads isDispatched

end Deed

namespace PageState

theorem queue_discardAll (page : PageState) (tops : List String) :
    (tops.foldl (fun page top => (page.discard top).1) page).queue = page.queue := by
  induction tops generalizing page with
  | nil => rfl
  | cons top rest inductionHypothesis =>
      exact (inductionHypothesis _).trans (Page.queue_discard page top)

theorem queue_of_edits {tree : PageTree} {origin : PageState} {parent : String}
    {building : Building} (edits : Building.Edits tree origin parent ⟨origin, []⟩ building) :
    building.page.queue = origin.queue := by
  induction edits with
  | refl => rfl
  | tail _ edit inductionHypothesis =>
      cases edit with
      | draw => exact inductionHypothesis
      | attach => exact inductionHypothesis
      | setUp => exact inductionHypothesis

/-- Making components leaves the queue of a page alone. -/
theorem queue_materialize (page : PageState) (tree : PageTree) (parent : Option String) :
    (page.materialize tree parent).1.page.queue = page.queue := by
  obtain ⟨building, edits, ⟨ids, outcome⟩ | ⟨error, outcome⟩⟩ :=
    page.edits_materialize tree parent
  · rw [outcome]
    exact queue_of_edits edits
  · rw [outcome]
    exact (queue_discardAll _ _).trans (queue_of_edits edits)

end PageState

namespace Page

/-- A page after deeds that concern its queue. It keeps its sink until it ends. -/
structure Follows (before : Page) (deeds : List Deed) (after : Page) : Prop where
  onQueue : ∀ deed ∈ deeds, deed.IsOnQueue
  stays : before.state.SameBinding after.state ∨ before.state.Ended after.state
  queue : Deed.Leads before.state.queue deeds after.state.queue

theorem Follows.of_same {before after : Page} (same : before.state.SameBinding after.state)
    (sameQueue : after.state.queue = before.state.queue) : Follows before [] after :=
  ⟨fun _ isDeed => absurd isDeed List.not_mem_nil, .inl same, sameQueue⟩

/-- Calls to the queue, and nothing else. -/
theorem Follows.of_calls {before after : Page} {calls : List QueueCall}
    (stays : before.state.SameBinding after.state ∨ before.state.Ended after.state)
    (queue : after.state.queue = calls.foldl QueueCall.perform before.state.queue) :
    Follows before (calls.map .queue) after :=
  ⟨Deed.isOnQueue_of_mem_queue, stays, queue ▸ Deed.leads_queue _ _⟩

theorem Follows.queueAll {before after : Page} {deeds : List Deed}
    (follows : before.Follows deeds after) (events : List Event) :
    before.Follows (deeds ++ Deed.queueAll events)
      (after.withState (after.state.queueAll events)) where
  onQueue deed isDeed := (List.mem_append.mp isDeed).elim (follows.onQueue deed)
    (Deed.isOnQueue_of_mem_queue deed)
  stays := follows.stays.imp (fun same => ⟨same.id, same.sink, same.isDestroyed⟩)
    (fun ended => ⟨ended.id, ended.sink, ended.isDestroyed⟩)
  queue := follows.queue.append (Deed.leads_queueAll _ events)

theorem follows_run (reaction : Reaction) (page : Page) :
    Follows page ((queueCalls reaction page).map .queue) (run reaction page).1 :=
  .of_calls (speaks_run reaction page).stays (queue_run reaction page)

/-- The deeds of one dispatch. -/
def dispatchDeeds (current : Dispatch) : List Deed :=
  .dispatch current.event :: (current.runs.flatMap HandlerRun.calls).map .queue

theorem leads_dispatches {page last : Page} {dispatches : List Dispatch}
    (chain : Dispatch.Chain page dispatches last) :
    Deed.Leads page.state.queue (dispatches.flatMap dispatchDeeds) last.state.queue := by
  induction dispatches generalizing page with
  | nil =>
      subst chain
      exact rfl
  | cons current rest inductionHypothesis =>
      have first : Deed.Leads page.state.queue (dispatchDeeds current) current.left.state.queue :=
        ⟨_, congrArg (fun page => page.state.queue) chain.1,
          current.queue_left ▸ Deed.leads_queue _ _⟩
      exact first.append (inductionHypothesis chain.2)

theorem follows_drain (fuel count : Nat) (page : Page) :
    Follows page ((page.dispatches fuel).flatMap dispatchDeeds) (drain fuel count page).1 where
  onQueue := by
    intro deed isDeed
    obtain ⟨current, -, isDeed⟩ := List.mem_flatMap.mp isDeed
    obtain rfl | isCall := List.mem_cons.mp isDeed
    · exact trivial
    · exact Deed.isOnQueue_of_mem_queue deed isCall
  stays := (speaks_drain fuel count page).stays
  queue := leads_dispatches (processed_drain fuel count page).chain

end Page

namespace Server

variable {number : Nat}

/-! ## Acts -/

/-- A change that concerns no connection and no page. -/
structure Aside (before after : Server) : Prop where
  connections : after.connections = before.connections
  pages : after.pages = before.pages
  sessions : after.sessions = before.sessions
  handlers : after.handlers = before.handlers
  resources : after.resources = before.resources
  limits : after.limits = before.limits
  frames : ∀ number, framesOn number after.journal = framesOn number before.journal

/-- A synchronizer after a call, and what the call lets out is sent. -/
def relay (server : Server) (number : Nat) (asked : SynchronizerCall) : Server :=
  server.release number ((server.session number).synchronizer.perform asked)

/-- One act of a server that serves a request of a session. -/
inductive Act (number : Nat) (before : Server) : List Deed → Server → Prop where
  | aside {after : Server} (same : before.Aside after) : Act number before [] after
  | call (session : Nat) (asked : SynchronizerCall) :
      Act number before [.call session asked] (before.relay session asked)
  | page {page : Nat} {live : Page} {deeds : List Deed}
      (owned : before.pageOf number = some page)
      (follows : (before.pages.page page).Follows deeds live) :
      Act number before deeds (before.putPage page live)
  | endSession : Act number before [.endSession] (before.destroySession number)

/-- Acts one after another. -/
inductive Acts (number : Nat) : Server → List Deed → Server → Prop where
  | refl (server : Server) : Acts number server [] server
  | step {first middle last : Server} {deeds rest : List Deed}
      (act : Act number first deeds middle) (acts : Acts number middle rest last) :
      Acts number first (deeds ++ rest) last

theorem Act.acts {before after : Server} {deeds : List Deed} (act : Act number before deeds after) :
    Acts number before deeds after := by
  have acts := Acts.step act (.refl after)
  rwa [List.append_nil] at acts

theorem Acts.trans {first second third : Server} {earlier later : List Deed}
    (before : Acts number first earlier second) (after : Acts number second later third) :
    Acts number first (earlier ++ later) third := by
  induction before with
  | refl => exact after
  | step act _ inductionHypothesis =>
      rw [List.append_assoc]
      exact .step act (inductionHypothesis after)

/-- What is recorded concerns no connection, unless it is a frame. -/
theorem aside_record (server : Server) {entries : List Entry}
    (noFrames : ∀ number, framesOn number entries = []) : server.Aside (server.record entries) :=
  ⟨rfl, rfl, rfl, rfl, rfl, rfl, fun number => by
    show framesOn number (server.journal ++ entries) = _
    rw [framesOn_append, noFrames, List.append_nil]⟩

/-! ## Calls to synchronizers -/

/-- What sending a frame leaves in the journal concerns its connection only. -/
theorem sendAny_eq_record (server : Server) (target : Nat) (frame : Option Frame) :
    ∃ entries, server.sendAny target frame = server.record entries ∧
      ∀ other, other ≠ target → framesOn other entries = [] := by
  unfold sendAny send
  split
  · next frame =>
      split
      · exact ⟨_, rfl, fun _ different => framesOn_frameEntries_of_ne different _ frame⟩
      · exact ⟨[], (record_nil server).symm, fun _ _ => rfl⟩
  · exact ⟨[], (record_nil server).symm, fun _ _ => rfl⟩

/-- A step of a synchronizer changes that, and may send a frame on its connection. -/
theorem release_eq_record (server : Server) (target : Nat) (step : Synchronizer × Option Frame) :
    ∃ entries, server.release target step =
        (server.modifySession target (fun session =>
          session.withSynchronizer step.1)).record entries ∧
      ∀ other, other ≠ target → framesOn other entries = [] := by
  unfold release
  dsimp only
  split
  · exact sendAny_eq_record _ target step.2
  · exact ⟨[], (record_nil _).symm, fun _ _ => rfl⟩

theorem pages_release (server : Server) (target : Nat) (step : Synchronizer × Option Frame) :
    (server.release target step).pages = server.pages := by
  obtain ⟨entries, released, -⟩ := release_eq_record server target step
  rw [released]
  rfl

/-- What pages emit changes no page. -/
theorem pages_deliverAll (server : Server) (effects : List PageEffect) :
    (server.deliverAll effects).pages = server.pages := by
  induction effects generalizing server with
  | nil => rfl
  | cons effect rest inductionHypothesis =>
      have first : (server.deliver effect).pages = server.pages := by
        match effect with
        | .note _ => rfl
        | .emission ⟨.observer, _⟩ => rfl
        | .emission ⟨.session _, _⟩ => exact pages_release server _ _
      exact (inductionHypothesis (server.deliver effect)).trans first

/-- A connection after a call to a synchronizer has its own one changed at most. -/
theorem connection_relay (server : Server) (target other : Nat) (asked : SynchronizerCall) :
    ∃ synchronizer, (server.relay target asked).connection other =
      (server.connection other).withSession
        ((server.session other).withSynchronizer synchronizer) := by
  obtain ⟨entries, released, -⟩ := release_eq_record server target
    ((server.session target).synchronizer.perform asked)
  rw [relay, released]
  show ∃ _, (server.modifyConnection target _).connection other = _
  rw [connection_modifyConnection_eq]
  split
  · next same =>
      rw [same.1]
      exact ⟨_, rfl⟩
  · exact ⟨(server.session other).synchronizer, rfl⟩

theorem startQueueing_eq_relay (server : Server) (number : Nat) :
    server.startQueueing number = server.relay number .start := by
  have called : server.startQueueing number = server.modifySession number (fun session =>
      session.withSynchronizer (server.session number).synchronizer.start) :=
    modifyConnection_congr rfl
  rw [called]
  exact (ite_self _).symm

theorem clearQueued_eq_relay (server : Server) (number : Nat) :
    server.clearQueued number = server.relay number .clear := by
  have called : server.clearQueued number = server.modifySession number (fun session =>
      session.withSynchronizer (server.session number).synchronizer.clear) :=
    modifyConnection_congr rfl
  rw [called]
  exact (ite_self _).symm

theorem pageOf_relay (server : Server) (target other : Nat) (asked : SynchronizerCall) :
    (server.relay target asked).pageOf other = server.pageOf other := by
  obtain ⟨synchronizer, isConnection⟩ := connection_relay server target other asked
  unfold pageOf session
  rw [isConnection]
  rfl

/-- Without its end, a session keeps its page. -/
theorem Acts.pageOf {before after : Server} {deeds : List Deed}
    (acts : Acts number before deeds after) (noEnd : .endSession ∉ deeds) :
    after.pageOf number = before.pageOf number := by
  induction acts with
  | refl => rfl
  | step act _ inductionHypothesis =>
      rw [List.mem_append, not_or] at noEnd
      rw [inductionHypothesis noEnd.2]
      cases act with
      | aside same =>
          unfold Server.pageOf session connection
          rw [same.connections]
      | call session asked => exact pageOf_relay _ _ number asked
      | page => rfl
      | endSession => exact absurd (List.mem_singleton_self _) noEnd.1

/-! ## What pages do -/

theorem acts_deliver (server : Server) (effect : PageEffect) :
    Acts number server (Deed.ofEffect? effect).toList (server.deliver effect) := by
  match effect with
  | .note entry => exact (Act.aside (server.aside_record (fun _ => rfl))).acts
  | .emission ⟨.observer, invocation⟩ =>
      exact (Act.aside (server.aside_record (fun _ => rfl))).acts
  | .emission ⟨.session session, invocation⟩ =>
      exact (Act.call session (.invoke invocation)).acts

theorem acts_deliverAll (server : Server) (effects : List PageEffect) :
    Acts number server (Deed.ofEffects effects) (server.deliverAll effects) := by
  induction effects generalizing server with
  | nil => exact .refl server
  | cons effect rest inductionHypothesis =>
      have first : Acts number server _ (server.deliver effect) := acts_deliver server effect
      have deeds : Deed.ofEffects (effect :: rest) =
          (Deed.ofEffect? effect).toList ++ Deed.ofEffects rest := by
        unfold Deed.ofEffects
        rw [List.filterMap_cons]
        cases Deed.ofEffect? effect <;> rfl
      rw [deeds]
      exact first.trans (inductionHypothesis (server.deliver effect))

/-- A page on its way, and where its effects go. -/
theorem acts_putPage {server : Server} {page : Nat} {live : Page} {deeds : List Deed}
    (owned : server.pageOf number = some page)
    (follows : (server.pages.page page).Follows deeds live) (effects : List PageEffect) :
    Acts number server (deeds ++ Deed.ofEffects effects)
      ((server.putPage page live).deliverAll effects) :=
  (Act.page owned follows).acts.trans (acts_deliverAll _ effects)

/-- The same of a page that is heard on its way. -/
theorem acts_putBack {server : Server} {page : Nat} {live : Page} {deeds : List Deed}
    (owned : server.pageOf number = some page)
    (follows : (server.pageNow page).Follows deeds live) (effects : List PageEffect) :
    Acts number server (deeds ++ Deed.ofEffects effects)
      ((server.putBack page live).deliverAll effects) := by
  let before := server.pages.page page
  have put : before.Follows deeds (live.withEcho before.echo) := ⟨follows.onQueue, follows.stays, follows.queue⟩
  exact acts_putPage owned put effects

theorem acts_modifyPage {server : Server} {page : Nat} {change : Page → Page} {deeds : List Deed}
    (owned : server.pageOf number = some page)
    (follows : ∀ live, Page.Follows live deeds (change live)) :
    Acts number server deeds (server.modifyPage page change) := by
  unfold modifyPage
  rw [PageStore.modify_eq_put]
  exact (Act.page owned (follows _)).acts

end Server

end LivePage
