import LivePage.Page.Reaction

/-!
Contract: what becomes of the events of a queue.

Owns:
- the steps of a queue, which is called or gives its first event away;
- the events that outlast all clears, read off the steps alone;
- what reactions ask of the queue of a page.

Does not own: the dispatch of the events that are taken off.
-/

namespace LivePage

/-! ## Steps of a queue -/

/-- Something asked of a queue of events. -/
inductive QueueCall where
  | queue (event : Event)
  | clear

def QueueCall.perform (queue : List Event) : QueueCall → List Event
  | .queue event => queue ++ [event]
  | .clear => []

/-- What happens to a queue: it is called, or its first event is taken off. -/
inductive QueueStep where
  | called (call : QueueCall)
  | taken

namespace QueueStep

def queued (event : Event) : QueueStep :=
  .called (.queue event)

/-- Whether an event with so many others in front of it is not cleared away. -/
def outlasts : Nat → List QueueStep → Bool
  | _, [] => true
  | _, .called .clear :: _ => false
  | ahead, .called (.queue _) :: rest => outlasts ahead rest
  | 0, .taken :: _ => true
  | ahead + 1, .taken :: rest => outlasts ahead rest

/-- The events that steps put into a queue in which so many others wait, in their order and
without those that are cleared away. -/
def survivors : Nat → List QueueStep → List Event
  | _, [] => []
  | waiting, .called (.queue event) :: rest =>
      (if outlasts waiting rest then [event] else []) ++ survivors (waiting + 1) rest
  | _, .called .clear :: rest => survivors 0 rest
  | waiting, .taken :: rest => survivors (waiting - 1) rest

theorem survivors_queued (waiting : Nat) (event : Event) (rest : List QueueStep) :
    survivors waiting (queued event :: rest) =
      (if outlasts waiting rest then [event] else []) ++ survivors (waiting + 1) rest :=
  rfl

/-- Events that come later make no difference to those that wait. -/
theorem outlasts_queued_append (ahead : Nat) (events : List Event) (rest : List QueueStep) :
    outlasts ahead (events.map queued ++ rest) = outlasts ahead rest := by
  induction events with
  | nil => rfl
  | cons event others inductionHypothesis => exact inductionHypothesis

theorem survivors_map_queued (waiting : Nat) (events : List Event) :
    survivors waiting (events.map queued) = events := by
  induction events generalizing waiting with
  | nil => rfl
  | cons event others inductionHypothesis =>
      have isLeft : outlasts waiting (others.map queued) = true := by
        have isLast := outlasts_queued_append waiting others []
        rwa [List.append_nil] at isLast
      rw [List.map_cons, survivors_queued, isLeft, inductionHypothesis]
      rfl

/-- A clear takes all that wait. -/
theorem survivors_clear (waiting : Nat) (events : List Event) (rest : List QueueStep) :
    survivors waiting (events.map queued ++ .called .clear :: rest) = survivors 0 rest := by
  induction events generalizing waiting with
  | nil => rfl
  | cons event others inductionHypothesis =>
      have isCleared : outlasts waiting (others.map queued ++ .called .clear :: rest) = false :=
        outlasts_queued_append waiting others _
      rw [List.map_cons, List.cons_append, survivors_queued, isCleared, inductionHypothesis]
      rfl

/-- Behind the one that is taken, all move up. -/
theorem survivors_behind_taken (waiting : Nat) (events : List Event) (rest : List QueueStep) :
    survivors (waiting + 1) (events.map queued ++ .taken :: rest) =
      survivors waiting (events.map queued ++ rest) := by
  induction events generalizing waiting with
  | nil => rfl
  | cons event others inductionHypothesis =>
      have movesUp : outlasts (waiting + 1) (others.map queued ++ .taken :: rest) =
          outlasts waiting (others.map queued ++ rest) := by
        rw [outlasts_queued_append, outlasts_queued_append]
        rfl
      rw [List.map_cons, List.cons_append, List.cons_append, survivors_queued, survivors_queued,
        movesUp, inductionHypothesis]

theorem survivors_taken (event : Event) (events : List Event) (rest : List QueueStep) :
    survivors 0 ((event :: events).map queued ++ .taken :: rest) =
      event :: survivors 0 (events.map queued ++ rest) := by
  have isTaken : outlasts 0 (events.map queued ++ .taken :: rest) = true :=
    outlasts_queued_append 0 events _
  rw [List.map_cons, List.cons_append, survivors_queued, isTaken, survivors_behind_taken]
  rfl

/-- Calls to a queue leave what they make of it. -/
theorem survivors_called (events : List Event) (calls : List QueueCall) (rest : List QueueStep) :
    survivors 0 (events.map queued ++ (calls.map called ++ rest)) =
      survivors 0 ((calls.foldl QueueCall.perform events).map queued ++ rest) := by
  induction calls generalizing events with
  | nil => rfl
  | cons call others inductionHypothesis =>
      rw [List.foldl_cons, ← inductionHypothesis]
      cases call with
      | queue event =>
          rw [QueueCall.perform, List.map_append, List.append_assoc]
          rfl
      | clear => exact survivors_clear 0 events _

/-- An event outlasts a clear that comes when it is taken off. -/
example (first second third : Event) :
    survivors 0 [queued first, queued second, .taken, .called .clear, queued third] =
      [first, third] :=
  rfl

end QueueStep

namespace Page

/-! ## What reactions ask of the queue -/

/-- The calls of those who hear what a page emits. -/
def echoCalls (page : Page) (emissions : List Emission) : List QueueCall :=
  (emissions.flatMap (fun emission => page.echo emission.invocation)).map .queue

/-- The calls of a reaction to the queue of a page, with those of others who hear its
invocations. The end of a page clears its queue. -/
def queueCalls : Reaction → Page → List QueueCall
  | .done, _ => []
  | .fail _, _ => []
  | .look next, page => queueCalls (next page.state) page
  | .note _ next, page => queueCalls next page
  | .setProperty target name value next, page =>
      match page.state.setProperty target name value with
      | .ok (state, emissions) =>
          page.echoCalls emissions ++
            queueCalls (next (.ok ())) ((page.withState state).echoed emissions)
      | .error error => queueCalls (next (.error error)) page
  | .invoke invocation next, page =>
      let emissions := page.state.emit invocation
      page.echoCalls emissions ++ queueCalls next (page.echoed emissions)
  | .queueEvent event next, page =>
      .queue event :: queueCalls next (page.withState (page.state.queueEvent event))
  | .clearQueue next, page => .clear :: queueCalls next (page.withState page.state.clearQueue)
  | .discard target next, page =>
      let (state, count) := page.state.discard target
      queueCalls (next count) (page.withState state)
  | .setHandler name handler next, page => queueCalls next (page.setHandler name handler)
  | .addListener target eventType listener next, page =>
      queueCalls next (page.addListener target eventType listener)
  | .destroy next, page =>
      (if page.state.isDestroyed then [] else [.clear]) ++ queueCalls next page.destroy

theorem queue_setProperty {state next : PageState} {target name : String} {value : Property}
    {emissions : List Emission}
    (set : state.setProperty target name value = .ok (next, emissions)) :
    next.queue = state.queue := by
  unfold PageState.setProperty at set
  split at set
  · cases set
  · split at set
    · cases set
    · cases set
      rfl

theorem queue_discard (state : PageState) (id : String) :
    (state.discard id).1.queue = state.queue := by
  unfold PageState.discard
  split
  · rfl
  · split <;> rfl

theorem queue_destroy (page : Page) :
    page.destroy.state.queue =
      (if page.state.isDestroyed then [] else [QueueCall.clear]).foldl QueueCall.perform
        page.state.queue := by
  unfold Page.destroy PageState.destroy
  split <;> rfl

theorem perform_queue (waiting events : List Event) :
    (events.map .queue).foldl QueueCall.perform waiting = waiting ++ events := by
  induction events generalizing waiting with
  | nil => exact (List.append_nil waiting).symm
  | cons event rest inductionHypothesis =>
      exact (inductionHypothesis (waiting ++ [event])).trans (List.append_assoc ..)

theorem queue_echoed (page : Page) (emissions : List Emission) :
    (page.echoed emissions).state.queue =
      (page.echoCalls emissions).foldl QueueCall.perform page.state.queue :=
  (perform_queue _ _).symm

/-- A reaction leaves in the queue what its calls make of it. -/
theorem queue_run (reaction : Reaction) (page : Page) :
    (run reaction page).1.state.queue =
      (queueCalls reaction page).foldl QueueCall.perform page.state.queue := by
  induction reaction generalizing page with
  | done => rfl
  | fail error => rfl
  | look next inductionHypothesis => exact inductionHypothesis page.state page
  | note entry next inductionHypothesis => exact inductionHypothesis page
  | setProperty target name value next inductionHypothesis =>
      unfold run queueCalls
      cases set : page.state.setProperty target name value with
      | ok result =>
          show (run (next (.ok ())) ((page.withState result.1).echoed result.2)).1.state.queue = _
          rw [inductionHypothesis, queue_echoed, List.foldl_append, ← queue_setProperty set]
          rfl
      | error error => exact inductionHypothesis _ page
  | invoke invocation next inductionHypothesis =>
      show (run next (page.echoed (page.state.emit invocation))).1.state.queue = _
      rw [inductionHypothesis, queue_echoed, ← List.foldl_append]
      rfl
  | queueEvent event next inductionHypothesis => exact inductionHypothesis _
  | clearQueue next inductionHypothesis => exact inductionHypothesis _
  | discard target next inductionHypothesis =>
      show (run (next (page.state.discard target).2)
        (page.withState (page.state.discard target).1)).1.state.queue = _
      rw [inductionHypothesis, ← queue_discard page.state target]
      rfl
  | setHandler name handler next _ inductionHypothesis => exact inductionHypothesis _
  | addListener target eventType listener next _ inductionHypothesis => exact inductionHypothesis _
  | destroy next inductionHypothesis =>
      show (run next page.destroy).1.state.queue = _
      rw [inductionHypothesis, queue_destroy, ← List.foldl_append]
      rfl

end Page

end LivePage
