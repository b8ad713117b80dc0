import LivePage.Proofs.Page.Audience
import LivePage.Proofs.Page.EventQueue

/-!
Contract: the order in which a page dispatches its events.

Owns:
- the runs of handlers that a dispatch consists of, and the audience that they are for;
- the dispatches that the processing of a queue consists of;
- events are dispatched in the order in which they were queued, each to its own handlers.

Does not own: what handlers do to the components, and where the first events come from.
-/

namespace LivePage

/-! ## Runs of handlers -/

/-- How what is done in turn ends: all succeed, or the last one fails and those before it
succeed. -/
def EndsWith {α : Type} (result : α → Except EventError Unit) (items : List α) :
    Except EventError Unit → Prop
  | .ok () => ∀ item ∈ items, result item = .ok ()
  | .error error => ∃ earlier last, items = earlier ++ [last] ∧
      (∀ item ∈ earlier, result item = .ok ()) ∧ result last = .error error

namespace EndsWith

variable {α : Type} {result : α → Except EventError Unit}

theorem nil : EndsWith result [] (.ok ()) :=
  fun _ isItem => absurd isItem List.not_mem_nil

theorem singleton {item : α} {ending : Except EventError Unit} (ends : result item = ending) :
    EndsWith result [item] ending := by
  cases ending with
  | ok _ =>
      intro other isItem
      rw [List.mem_singleton.mp isItem, ends]
  | error error => exact ⟨[], item, rfl, nil, ends⟩

/-- What is done after successes decides how all ends. -/
theorem append {earlier later : List α} {ending : Except EventError Unit}
    (first : EndsWith result earlier (.ok ())) (second : EndsWith result later ending) :
    EndsWith result (earlier ++ later) ending := by
  cases ending with
  | ok _ =>
      intro item isItem
      exact (List.mem_append.mp isItem).elim (first item) (second item)
  | error error =>
      obtain ⟨before, last, rfl, succeed, fails⟩ := second
      refine ⟨earlier ++ before, last, (List.append_assoc ..).symm, ?_, fails⟩
      intro item isItem
      exact (List.mem_append.mp isItem).elim (first item) (succeed item)

theorem cons {item : α} {later : List α} {ending : Except EventError Unit}
    (first : result item = .ok ()) (second : EndsWith result later ending) :
    EndsWith result (item :: later) ending :=
  append (singleton first) second

end EndsWith

/-- One run of a handler of an event, on the page that it finds. -/
structure HandlerRun (event : Event) where
  handler : EventHandler
  page : Page

namespace HandlerRun

variable {event : Event}

def outcome (current : HandlerRun event) : Page.Outcome (Except EventError Unit) :=
  Page.run (current.handler event) current.page

/-- The page that a run leaves. -/
def left (current : HandlerRun event) : Page :=
  current.outcome.1

def effects (current : HandlerRun event) : List PageEffect :=
  current.outcome.2.1

def result (current : HandlerRun event) : Except EventError Unit :=
  current.outcome.2.2

def calls (current : HandlerRun event) : List QueueCall :=
  Page.queueCalls (current.handler event) current.page

def registrations (current : HandlerRun event) : List Registration :=
  Page.registrations (current.handler event) current.page

/-- Each run finds what the one before has left. -/
def Chain : Page → List (HandlerRun event) → Page → Prop
  | page, [], last => last = page
  | page, current :: rest, last => current.page = page ∧ Chain current.left rest last

theorem Chain.append {page middle last : Page} {earlier later : List (HandlerRun event)}
    (first : Chain page earlier middle) (second : Chain middle later last) :
    Chain page (earlier ++ later) last := by
  induction earlier generalizing page with
  | nil =>
      subst first
      exact second
  | cons current rest inductionHypothesis => exact ⟨first.1, inductionHypothesis first.2⟩

theorem Chain.queue {page last : Page} {runs : List (HandlerRun event)}
    (chain : Chain page runs last) :
    last.state.queue = (runs.flatMap calls).foldl QueueCall.perform page.state.queue := by
  induction runs generalizing page with
  | nil =>
      subst chain
      rfl
  | cons current rest inductionHypothesis =>
      have afterFirst : current.left.state.queue =
          current.calls.foldl QueueCall.perform page.state.queue :=
        chain.1 ▸ Page.queue_run _ _
      rw [inductionHypothesis chain.2, afterFirst, List.flatMap_cons, List.foldl_append]

end HandlerRun

namespace Page

open HandlerRun

/-- The runs of handlers in their order, until one fails. -/
def runsOf (event : Event) : List EventHandler → Page → List (HandlerRun event)
  | [], _ => []
  | handler :: rest, page =>
      let first : HandlerRun event := ⟨handler, page⟩
      first :: match first.result with
        | .ok () => runsOf event rest first.left
        | .error _ => []

theorem runAll_cons_of_ok {event : Event} (first : HandlerRun event)
    (succeeds : first.result = .ok ()) (rest : List EventHandler) :
    runAll event (first.handler :: rest) first.page =
      after first.effects (runAll event rest first.left) := by
  have outcome : run (first.handler event) first.page = (first.left, first.effects, .ok ()) := by
    rw [← succeeds]
    rfl
  rw [runAll, outcome]

theorem runAll_cons_of_error {event : Event} (first : HandlerRun event) {error : EventError}
    (fails : first.result = .error error) (rest : List EventHandler) :
    runAll event (first.handler :: rest) first.page =
      (first.left, first.effects, .error error) := by
  have outcome : run (first.handler event) first.page =
      (first.left, first.effects, .error error) := by
    rw [← fails]
    rfl
  rw [runAll, outcome]

/-- One handler alone leaves what its run leaves. -/
theorem left_runAll_singleton {event : Event} (first : HandlerRun event) :
    (runAll event [first.handler] first.page).1 = first.left := by
  cases result : first.result with
  | ok _ =>
      rw [runAll_cons_of_ok first result]
      rfl
  | error error => rw [runAll_cons_of_error first result]

/-- Handlers that run in turn, on a page that is passed on, and how that ends. -/
structure Served {event : Event} (page : Page) (handlers : List EventHandler)
    (runs : List (HandlerRun event)) (outcome : Outcome (Except EventError Unit)) : Prop where
  chain : Chain page runs outcome.1
  effects : outcome.2.1 = runs.flatMap HandlerRun.effects
  ending : EndsWith HandlerRun.result runs outcome.2.2
  isPrefix : runs.map HandlerRun.handler <+: handlers
  isWhole : outcome.2.2 = .ok () → runs.map HandlerRun.handler = handlers

theorem served_runAll (event : Event) (handlers : List EventHandler) (page : Page) :
    Served page handlers (runsOf event handlers page) (runAll event handlers page) := by
  induction handlers generalizing page with
  | nil => exact ⟨rfl, rfl, EndsWith.nil, List.prefix_refl _, fun _ => rfl⟩
  | cons handler rest inductionHypothesis =>
      let first : HandlerRun event := ⟨handler, page⟩
      unfold runsOf
      dsimp only
      cases result : first.result with
      | ok _ =>
          have others := inductionHypothesis first.left
          rw [runAll_cons_of_ok first result]
          refine ⟨⟨rfl, others.chain⟩, ?_, others.ending.cons result, ?_, ?_⟩
          · show first.effects ++ _ = _
            rw [others.effects, List.flatMap_cons]
          · exact List.cons_prefix_cons.mpr ⟨rfl, others.isPrefix⟩
          · intro isOk
            rw [List.map_cons, others.isWhole isOk]
      | error error =>
          rw [runAll_cons_of_error first result]
          have ends := EndsWith.singleton result
          exact ⟨⟨rfl, rfl⟩, (List.append_nil _).symm, ends, ⟨rest, rfl⟩, nofun⟩

/-- Handlers that run after others. -/
theorem Served.append {event : Event} {page : Page} {first second : List EventHandler}
    {earlier later : List (HandlerRun event)} {middle : Outcome (Except EventError Unit)}
    {outcome : Outcome (Except EventError Unit)} (before : Served page first earlier middle)
    (succeeds : middle.2.2 = .ok ()) (behind : Served middle.1 second later outcome) :
    Served page (first ++ second) (earlier ++ later) (after middle.2.1 outcome) where
  chain := before.chain.append behind.chain
  effects := by
    show middle.2.1 ++ outcome.2.1 = _
    rw [before.effects, behind.effects, List.flatMap_append]
  ending := (succeeds ▸ before.ending).append behind.ending
  isPrefix := by
    rw [List.map_append, before.isWhole succeeds]
    exact (List.prefix_append_right_inj first).mpr behind.isPrefix
  isWhole := by
    intro isOk
    rw [List.map_append, before.isWhole succeeds, behind.isWhole isOk]

/-- Handlers that would have come after a failure do not run. -/
theorem Served.before {event : Event} {page last : Page} {handlers : List EventHandler}
    {runs : List (HandlerRun event)} {effects : List PageEffect} {error : EventError}
    (served : Served page handlers runs (last, effects, .error error))
    (others : List EventHandler) :
    Served page (handlers ++ others) runs (last, effects, .error error) where
  chain := served.chain
  effects := served.effects
  ending := served.ending
  isPrefix := served.isPrefix.trans (List.prefix_append handlers others)
  isWhole := nofun

end Page

/-! ## Dispatches -/

/-- One event on its way to its handlers, and the page when it is off the queue. -/
structure Dispatch where
  event : Event
  page : Page

namespace Dispatch

open Page

/-- The page when the event is still the first of the queue. -/
def before (current : Dispatch) : Page :=
  current.page.withState
    { current.page.state with queue := current.event :: current.page.state.queue }

def outcome (current : Dispatch) : Outcome (Except EventError Unit) :=
  current.page.dispatch current.event

/-- The page that a dispatch leaves. -/
def left (current : Dispatch) : Page :=
  current.outcome.1

def effects (current : Dispatch) : List PageEffect :=
  current.outcome.2.1

def result (current : Dispatch) : Except EventError Unit :=
  current.outcome.2.2

/-- The runs of handlers that a dispatch consists of; `Answered` says which they are. -/
def runs (current : Dispatch) : List (HandlerRun current.event) :=
  match current.page.boundHandlers current.event with
  | .error _ => []
  | .ok bound =>
      let middle := runAll current.event bound current.page
      runsOf current.event bound current.page ++
        match middle.2.2 with
        | .ok () => runsOf current.event (middle.1.listenersTo current.event) middle.1
        | .error _ => []

/-- What a dispatch does to the queue. -/
def steps (current : Dispatch) : List QueueStep :=
  .taken :: (current.runs.flatMap HandlerRun.calls).map .called

/-- The handlers that an event is for: the one that its target binds to it, and then those that
listen to it when that one has finished. -/
inductive Audience (current : Dispatch) : List EventHandler → Prop
  | listeners {reactions : List EventHandler}
      (isUnbound : current.page.Binding current.event (.ok []))
      (listening : Listening current.event current.page.listeners reactions) :
      Audience current reactions
  | bound (first : HandlerRun current.event) {reactions : List EventHandler}
      (isOnPage : first.page = current.page)
      (isBound : current.page.Binding current.event (.ok [first.handler]))
      (listening : Listening current.event first.left.listeners reactions) :
      Audience current (first.handler :: reactions)

/-- What becomes of an event: without a binding nothing runs, and else the handlers of its
audience run in their order, each one once, until one fails. -/
inductive Answered (current : Dispatch) : Prop
  | refused {error : EventError} (isRefused : current.page.Binding current.event (.error error))
      (outcome : current.outcome = (current.page, [], .error error)) (runs : current.runs = [])
  | served {handlers : List EventHandler} (audience : current.Audience handlers)
      (served : Served current.page handlers current.runs current.outcome)

/-- The audience of an event that is bound to some handlers, of which there is one at most. -/
theorem audience_append {current : Dispatch} {bound : List EventHandler}
    (binding : current.page.Binding current.event (.ok bound)) :
    current.Audience (bound ++
      (runAll current.event bound current.page).1.listenersTo current.event) := by
  have listening := listening_listenersTo (runAll current.event bound current.page).1 current.event
  cases binding with
  | unbound isAlive isTarget isUnnamed =>
      exact .listeners (.unbound isAlive isTarget isUnnamed) listening
  | @bound target name handler isAlive isTarget isNamed isHandler =>
      let first : HandlerRun current.event := ⟨handler, current.page⟩
      have left : (runAll current.event [handler] current.page).1 = first.left :=
        left_runAll_singleton first
      rw [left] at listening ⊢
      exact .bound first rfl (.bound isAlive isTarget isNamed isHandler) listening

theorem answered (current : Dispatch) : current.Answered := by
  obtain ⟨event, page⟩ := current
  have binding := binding_boundHandlers page event
  cases isBound : page.boundHandlers event with
  | error error =>
      rw [isBound] at binding
      refine .refused binding ?_ ?_
      · simp only [outcome, dispatch, isBound]
      · simp only [runs, isBound]
  | ok bound =>
      rw [isBound] at binding
      refine .served (audience_append binding) ?_
      have first := served_runAll event bound page
      unfold runs outcome dispatch
      dsimp only
      rw [isBound]
      dsimp only
      generalize runAll event bound page = middle at first
      obtain ⟨next, effects, result⟩ := middle
      cases result with
      | ok _ => exact first.append rfl (served_runAll event (next.listenersTo event) next)
      | error error =>
          dsimp only
          rw [List.append_nil]
          exact first.before (next.listenersTo event)

/-- A dispatch leaves in the queue what its handlers have made of it. -/
theorem queue_left (current : Dispatch) :
    current.left.state.queue =
      (current.runs.flatMap HandlerRun.calls).foldl QueueCall.perform current.page.state.queue := by
  cases current.answered with
  | refused isRefused outcome isEmpty =>
      rw [isEmpty, left, outcome]
      rfl
  | served audience served => exact served.chain.queue

/-- Each dispatch takes the first event of the page that the one before has left. -/
def Chain : Page → List Dispatch → Page → Prop
  | page, [], last => last = page
  | page, current :: rest, last => page = current.before ∧ Chain current.left rest last

end Dispatch

namespace Page

open Dispatch QueueStep

theorem eq_before_of_takeEvent? {page : Page} {current : Dispatch}
    (isTaken : page.takeEvent? = some (current.event, current.page)) : page = current.before := by
  obtain ⟨event, rest⟩ := current
  unfold takeEvent? at isTaken
  split at isTaken
  · cases isTaken
  · next isQueue =>
      cases isTaken
      unfold before
      dsimp only [withState]
      rw [← isQueue]

theorem queue_of_takeEvent?_eq_none {page : Page} (isEmpty : page.takeEvent? = none) :
    page.state.queue = [] := by
  unfold takeEvent? at isEmpty
  split at isEmpty
  · next isQueue => exact isQueue
  · cases isEmpty

/-- The events that were dispatched, with those that wait, are those that were queued and not
cleared away. -/
theorem survivors_of_chain {page last : Page} {dispatches : List Dispatch}
    (chain : Chain page dispatches last) :
    dispatches.map Dispatch.event ++ last.state.queue =
      survivors 0 (page.state.queue.map queued ++ dispatches.flatMap steps) := by
  induction dispatches generalizing page with
  | nil =>
      subst chain
      rw [List.flatMap_nil, List.append_nil, survivors_map_queued]
      rfl
  | cons current rest inductionHypothesis =>
      -- the first event is taken, and what its handlers ask comes before all later steps
      have isFirst : page.state.queue = current.event :: current.page.state.queue :=
        congrArg (fun page => page.state.queue) chain.1
      rw [isFirst, List.flatMap_cons, steps, List.cons_append,
        survivors_taken, survivors_called, ← queue_left, ← inductionHypothesis chain.2]
      rfl

/-- The dispatches that so many rounds of processing the queue consist of. -/
def dispatches : Nat → Page → List Dispatch
  | 0, _ => []
  | fuel + 1, page =>
      match page.takeEvent? with
      | none => []
      | some (event, rest) =>
          let first : Dispatch := ⟨event, rest⟩
          first :: match first.result with
            | .ok () => dispatches fuel first.left
            | .error _ => []

theorem drain_of_ok {page : Page} {first : Dispatch}
    (isTaken : page.takeEvent? = some (first.event, first.page))
    (succeeds : first.result = .ok ()) (fuel count : Nat) :
    drain (fuel + 1) count page = after first.effects (drain fuel (count + 1) first.left) := by
  have outcome : first.page.dispatch first.event = (first.left, first.effects, .ok ()) := by
    rw [← succeeds]
    rfl
  rw [drain, isTaken]
  dsimp only
  rw [outcome]

theorem drain_of_error {page : Page} {first : Dispatch} {error : EventError}
    (isTaken : page.takeEvent? = some (first.event, first.page))
    (fails : first.result = .error error) (fuel count : Nat) :
    drain (fuel + 1) count page = (first.left, first.effects, .failed error) := by
  have outcome : first.page.dispatch first.event =
      (first.left, first.effects, .error error) := by
    rw [← fails]
    rfl
  rw [drain, isTaken]
  dsimp only
  rw [outcome]

end Page

/-- How processing a queue ends after dispatches, with the page that the last one has left. -/
def DrainOutcome.Ends (fuel count : Nat) (dispatches : List Dispatch) (last : Page) :
    DrainOutcome → Prop
  | .drained total => total = count + dispatches.length ∧ last.state.queue = [] ∧
      EndsWith Dispatch.result dispatches (.ok ())
  | .failed error => EndsWith Dispatch.result dispatches (.error error)
  | .unfinished => dispatches.length = fuel ∧ EndsWith Dispatch.result dispatches (.ok ())

namespace Page

open Dispatch QueueStep

/-- One more dispatch in front, which has succeeded. -/
theorem ends_cons {fuel count : Nat} {first : Dispatch} {rest : List Dispatch} {last : Page}
    (succeeds : first.result = .ok ()) {ending : DrainOutcome}
    (ends : ending.Ends fuel (count + 1) rest last) :
    ending.Ends (fuel + 1) count (first :: rest) last := by
  cases ending with
  | drained total =>
      obtain ⟨isTotal, isEmpty, succeed⟩ := ends
      refine ⟨?_, isEmpty, succeed.cons succeeds⟩
      rw [isTotal, List.length_cons, Nat.add_assoc, Nat.add_comm 1]
  | failed error =>
      have fails : EndsWith Dispatch.result rest (.error error) := ends
      exact fails.cons succeeds
  | unfinished =>
      obtain ⟨isBound, succeed⟩ := ends
      exact ⟨congrArg Nat.succ isBound, succeed.cons succeeds⟩

/-- A page whose queue is processed by dispatches. -/
structure Processed (fuel count : Nat) (page : Page) (dispatches : List Dispatch)
    (outcome : Outcome DrainOutcome) : Prop where
  chain : Chain page dispatches outcome.1
  effects : outcome.2.1 = dispatches.flatMap Dispatch.effects
  ending : outcome.2.2.Ends fuel count dispatches outcome.1

theorem processed_drain (fuel count : Nat) (page : Page) :
    Processed fuel count page (page.dispatches fuel) (drain fuel count page) := by
  induction fuel generalizing count page with
  | zero => exact ⟨rfl, rfl, rfl, EndsWith.nil⟩
  | succ fuel inductionHypothesis =>
      cases isTaken : page.takeEvent? with
      | none =>
          rw [dispatches, drain, isTaken]
          exact ⟨rfl, rfl, rfl, queue_of_takeEvent?_eq_none isTaken, EndsWith.nil⟩
      | some taken =>
          let first : Dispatch := ⟨taken.1, taken.2⟩
          have isFirst : page.takeEvent? = some (first.event, first.page) := isTaken
          rw [dispatches, isFirst]
          dsimp only
          cases result : first.result with
          | ok _ =>
              rw [drain_of_ok isFirst result]
              have others := inductionHypothesis (count + 1) first.left
              refine ⟨⟨eq_before_of_takeEvent? isFirst, others.chain⟩, ?_,
                ends_cons result others.ending⟩
              show first.effects ++ _ = _
              rw [others.effects, List.flatMap_cons]
          | error error =>
              rw [drain_of_error isFirst result]
              exact ⟨⟨eq_before_of_takeEvent? isFirst, rfl⟩, (List.append_nil _).symm,
                EndsWith.singleton result⟩

/-- An answer does not depend on the bound that it was found with. -/
theorem drain_of_le {fuel more : Nat} (isMore : fuel ≤ more) {count : Nat} {page : Page}
    (isAnswer : (drain fuel count page).2.2 ≠ .unfinished) :
    drain more count page = drain fuel count page := by
  induction fuel generalizing more count page with
  | zero => exact absurd rfl isAnswer
  | succ fuel inductionHypothesis =>
      obtain ⟨more, rfl⟩ : ∃ others, more = others + 1 := ⟨more - 1, by omega⟩
      cases isTaken : page.takeEvent? with
      | none => rw [drain, drain, isTaken]
      | some taken =>
          let first : Dispatch := ⟨taken.1, taken.2⟩
          have isFirst : page.takeEvent? = some (first.event, first.page) := isTaken
          cases result : first.result with
          | ok _ =>
              rw [drain_of_ok isFirst result] at isAnswer ⊢
              rw [drain_of_ok isFirst result,
                inductionHypothesis (Nat.le_of_succ_le_succ isMore) isAnswer]
          | error error => rw [drain_of_error isFirst result, drain_of_error isFirst result]

/-- Events are dispatched in the order in which they were queued: those that wait at first, and
then those that handlers queue, without those that are cleared away while they wait. Each goes
to the handler that its target binds to it and then to its listeners, once each and in the order
of their registration. If the queue becomes empty, all were dispatched; at a failure nothing
runs any more, and the events behind it wait. The bound on the number of dispatches has no part
in an answer. -/
theorem events_are_dispatched_in_order (fuel count : Nat) (page : Page) :
    let dispatches := page.dispatches fuel
    let outcome := drain fuel count page
    Processed fuel count page dispatches outcome ∧
      (∀ current ∈ dispatches, current.Answered) ∧
      (∀ current ∈ dispatches, ∀ run ∈ current.runs, run.left.registered =
        run.registrations.foldl Registration.perform run.page.registered) ∧
      dispatches.map Dispatch.event ++ outcome.1.state.queue =
        survivors 0 (page.state.queue.map queued ++ dispatches.flatMap steps) ∧
      (outcome.2.2 ≠ .unfinished → ∀ more, fuel ≤ more → drain more count page = outcome) := by
  intro dispatches outcome
  have processed := processed_drain fuel count page
  refine ⟨processed, ?_, ?_, survivors_of_chain processed.chain, ?_⟩
  · intro current _
    exact current.answered
  · intro current _ run _
    exact registered_run (run.handler current.event) run.page
  · intro isAnswer more isMore
    exact drain_of_le isMore isAnswer

/-- The handler of a click registers another listener to clicks, which hears that click and the
next one. -/
theorem listeners_hear_after_bound_handler :
    let hear : EventHandler := fun _ => .note .null .done
    let answer : EventHandler := fun _ => .addListener "p" "click" hear .done
    let click : Event := ⟨"click", "p", .null, none⟩
    let target := { Component.bare "p" "page" "Page" with
      events := Dict.empty.insert "click" "answer" }
    let made := (new "p" "index" 0).setHandler "answer" answer
    let page := made.withState { made.state with
      components := Dict.empty.insert "p" target, queue := [click, click] }
    (∀ current ∈ page.dispatches 9, current.Answered) ∧
      (page.dispatches 9).map (fun current => current.runs.length) = [2, 3] ∧
      (drain 9 0 page).2.2 = .drained 2 := by
  intro hear answer click target made page
  have inOrder := events_are_dispatched_in_order 9 0 page
  exact ⟨inOrder.2.1, by decide +kernel, by decide +kernel⟩

/-- What a listener queues is dispatched behind all that waits. -/
example :
    let event (eventType : String) : Event := ⟨eventType, "p", .null, none⟩
    let page := (new "p" "index" 0).addListener "p" "ask" (fun _ =>
      .queueEvent (event "answer") .done)
    let asked := page.withState ((page.state.queueEvent (event "ask")).queueEvent (event "ask"))
    (dispatches 9 asked).map (fun current => current.event.eventType) =
        ["ask", "ask", "answer", "answer"] ∧
      (drain 9 0 asked).2.2 = .drained 4 := by
  decide +kernel

end Page

end LivePage
