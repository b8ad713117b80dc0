import LivePage.Page.State

/-!
Contract: events and what handlers do about them.

Owns:
- reactions: finite programs that act on a page one request at a time;
- pages with their named handlers and listeners;
- the dispatch of one event, and of the queue until it is empty.

Does not own: where the events of a queue come from.
-/

namespace LivePage

/-- What a handler does. It reads the page's state, acts on the page one
request at a time, and ends with success or failure. -/
inductive Reaction where
  | done
  | fail (error : EventError)
  | look (next : PageState → Reaction)
  /-- Leaves an entry in the record of what happened. -/
  | note (entry : Json) (next : Reaction)
  | setProperty (target name : String) (value : Property)
      (next : Except EventError Unit → Reaction)
  | invoke (invocation : Invocation) (next : Reaction)
  | queueEvent (event : Event) (next : Reaction)
  | clearQueue (next : Reaction)
  | discard (target : String) (next : Nat → Reaction)
  | setHandler (name : String) (handler : Event → Reaction) (next : Reaction)
  | addListener (target eventType : String) (listener : Event → Reaction) (next : Reaction)
  | destroy (next : Reaction)

instance : Inhabited Reaction := ⟨.done⟩

abbrev EventHandler := Event → Reaction

/-- A listener to one type of event of one component. -/
structure Listener where
  target : String
  eventType : String
  react : EventHandler
deriving Inhabited

/-- A live page with its handlers by name and its listeners in the order of
their registration. -/
structure Page where
  state : PageState
  handlers : Dict EventHandler
  listeners : List Listener
  /-- What those who are told of an invocation at once queue on the page. -/
  echo : Invocation → List Event
deriving Inhabited

/-- What happens outside of a page because of it. -/
inductive PageEffect where
  | emission (emission : Emission)
  | note (entry : Json)

/-- What came of processing a queue. -/
inductive DrainOutcome where
  | drained (dispatched : Nat)
  | failed (error : EventError)
  /-- The bound on the number of events was reached. -/
  | unfinished
deriving DecidableEq, Repr

namespace Page

def new (id src : String) (createdAt : Nat) : Page :=
  ⟨PageState.new id src createdAt, .empty, [], fun _ => []⟩

def id (page : Page) : String :=
  page.state.id

def withState (page : Page) (state : PageState) : Page :=
  { page with state := state }

def withEcho (page : Page) (echo : Invocation → List Event) : Page :=
  { page with echo := echo }

/-- The page when its invocations have been heard. -/
def echoed (page : Page) (emissions : List Emission) : Page :=
  page.withState (page.state.queueAll
    (emissions.flatMap (fun emission => page.echo emission.invocation)))

/-- Registers a handler; it replaces one of the same name. -/
def setHandler (page : Page) (name : String) (handler : EventHandler) : Page :=
  { page with handlers := page.handlers.insert name handler }

def addListener (page : Page) (target eventType : String) (listener : EventHandler) : Page :=
  { page with listeners := page.listeners ++ [⟨target, eventType, listener⟩] }

/-- Ends the page, which forgets its handlers and listeners. -/
def destroy (page : Page) : Page :=
  if page.state.isDestroyed then page else ⟨page.state.destroy, .empty, [], fun _ => []⟩

def effectsOf (emissions : List Emission) : List PageEffect :=
  emissions.map .emission

/-- A page, what happened outside, and how it ended. -/
abbrev Outcome (α : Type) := Page × List PageEffect × α

/-- Puts what happened earlier in front. -/
def after {α : Type} (effects : List PageEffect) (outcome : Outcome α) : Outcome α :=
  (outcome.1, effects ++ outcome.2.1, outcome.2.2)

/-- Runs a reaction on a page. -/
def run : Reaction → Page → Outcome (Except EventError Unit)
  | .done, page => (page, [], .ok ())
  | .fail error, page => (page, [], .error error)
  | .look next, page => run (next page.state) page
  | .note entry next, page => after [.note entry] (run next page)
  | .setProperty target name value next, page =>
      match page.state.setProperty target name value with
      | .ok (state, emissions) =>
          after (effectsOf emissions)
            (run (next (.ok ())) ((page.withState state).echoed emissions))
      | .error error => run (next (.error error)) page
  | .invoke invocation next, page =>
      let emissions := page.state.emit invocation
      after (effectsOf emissions) (run next (page.echoed emissions))
  | .queueEvent event next, page => run next (page.withState (page.state.queueEvent event))
  | .clearQueue next, page => run next (page.withState page.state.clearQueue)
  | .discard target next, page =>
      let (state, count) := page.state.discard target
      run (next count) (page.withState state)
  | .setHandler name handler next, page => run next (page.setHandler name handler)
  | .addListener target eventType listener next, page =>
      run next (page.addListener target eventType listener)
  | .destroy next, page => run next page.destroy

/-- Runs handlers of one event in their order, until one fails. -/
def runAll (event : Event) : List EventHandler → Page → Outcome (Except EventError Unit)
  | [], page => (page, [], .ok ())
  | handler :: rest, page =>
      match run (handler event) page with
      | (next, effects, .error error) => (next, effects, .error error)
      | (next, effects, .ok ()) => after effects (runAll event rest next)

/-- The listeners to an event. -/
def listenersTo (page : Page) (event : Event) : List EventHandler :=
  (page.listeners.filter (fun listener =>
    listener.target == event.target && listener.eventType == event.eventType)).map Listener.react

/-- The handlers that the target of an event binds to it: one or none. -/
def boundHandlers (page : Page) (event : Event) : Except EventError (List EventHandler) :=
  if page.state.isDestroyed then .error (.pageDestroyed page.id)
  else
    match page.state.component? event.target with
    | none => .error (.unknownTarget event.target)
    | some component =>
        match component.events.get? event.eventType with
        | none => .ok []
        | some name =>
            match page.handlers.get? name with
            | none => .error (.missingHandler name)
            | some handler => .ok [handler]

/-- Hands an event to its bound handler, and then to those who listen to it
when that handler has finished. -/
def dispatch (page : Page) (event : Event) : Outcome (Except EventError Unit) :=
  match page.boundHandlers event with
  | .error error => (page, [], .error error)
  | .ok handlers =>
      match runAll event handlers page with
      | (next, effects, .error error) => (next, effects, .error error)
      | (next, effects, .ok ()) => after effects (runAll event (next.listenersTo event) next)

/-- Takes the first event off the queue. -/
def takeEvent? (page : Page) : Option (Event × Page) :=
  match page.state.queue with
  | [] => none
  | event :: rest => some (event, page.withState { page.state with queue := rest })

/-- Dispatches events until the queue is empty or one fails; the fuel bounds
their number, and `count` says how many were dispatched before. -/
def drain : Nat → Nat → Page → Outcome DrainOutcome
  | 0, _, page => (page, [], .unfinished)
  | fuel + 1, count, page =>
      match page.takeEvent? with
      | none => (page, [], .drained count)
      | some (event, rest) =>
          match rest.dispatch event with
          | (next, effects, .error error) => (next, effects, .failed error)
          | (next, effects, .ok ()) => after effects (drain fuel (count + 1) next)

end Page

end LivePage
