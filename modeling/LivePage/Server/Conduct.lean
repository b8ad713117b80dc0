import LivePage.Page.State
import LivePage.Session.Basic
import LivePage.Session.Request

/-!
Contract: what handlers of requests do.

Owns:
- conducts: finite programs that act on the session of a request and on its
  page, one act at a time;
- the handlers that a server knows by the type of request.

Does not own: the effect of each act.
-/

namespace LivePage

/-- What a handler sees: its request, the phase and the page of the session, and
the request that is being processed. -/
structure RequestView where
  request : Request
  phase : SessionPhase
  page : Option String
  current : Option Request

/-- What a handler does about a request. It ends with success, or with the
messages of an error and its causes. -/
inductive Conduct where
  | done
  | fail (chain : List String)
  | look (next : RequestView → Conduct)
  /-- Leaves an entry in the record of what happened. -/
  | note (entry : Json) (next : Conduct)
  /-- Queues an event on the page of the session. -/
  | queueEvent (event : Event) (next : Conduct)
  /-- Makes an invocation on the page of the session. -/
  | invoke (invocation : Invocation) (next : Conduct)
  /-- Acts on the page of the session. The answer is how that ended, none without
  a page. -/
  | react (reaction : Reaction) (next : Option (Except EventError Unit) → Conduct)
  | startQueueing (next : Conduct)
  | stopQueueing (next : Conduct)
  | clearQueued (next : Conduct)
  /-- Ends the session. -/
  | destroySession (next : Conduct)
  /-- Marks the request as the one being processed, and at once as finished. -/
  | reenter (next : Conduct)

instance : Inhabited Conduct := ⟨.done⟩

/-- Who serves a type of request. -/
inductive RequestHandler where
  /-- Makes the components of the page. -/
  | init
  /-- Queues an event of the client. -/
  | event
  /-- Takes a log entry of the client. -/
  | log
  | custom (requestType : String) (respond : Request → Conduct)

def RequestHandler.requestType : RequestHandler → String
  | .init => "init"
  | .event => "event"
  | .log => "log"
  | .custom requestType _ => requestType

/-- How severe a log entry of a client is. -/
inductive LogLevel where
  | error
  | warn
  | info
  | debug
  | trace
deriving DecidableEq, Repr

namespace LogLevel

def name : LogLevel → String
  | .error => "ERROR"
  | .warn => "WARN"
  | .info => "INFO"
  | .debug => "DEBUG"
  | .trace => "TRACE"

/-- The level of a word in any case; other words mean information. -/
def ofWord (word : String) : LogLevel :=
  match Text.lowerAscii word with
  | "error" => .error
  | "fatal" => .error
  | "warn" => .warn
  | "warning" => .warn
  | "debug" => .debug
  | "trace" => .trace
  | _ => .info

end LogLevel

/-- A point in the life of a session. -/
inductive LifecycleEvent where
  | created
  | destroyed
deriving DecidableEq, Repr

/-- What a lifecycle listener answers. -/
inductive LifecycleOutcome where
  | accepted
  /-- The session is refused. -/
  | vetoed (reason : String)
  /-- The listener failed, which is of no consequence. -/
  | failed (reason : String)
deriving DecidableEq, Repr

/-- One who is told when sessions begin and end. Its answer, and what it does to
the page of the session, may depend on how often it was told before. -/
structure LifecycleListener where
  number : Nat
  name : String
  respond : LifecycleEvent → Nat → LifecycleOutcome
  created : Nat
  destroyed : Nat
  act : LifecycleEvent → Nat → Reaction := fun _ _ => .done

namespace LifecycleListener

/-- How often the listener was told of a kind of event. -/
def count (listener : LifecycleListener) : LifecycleEvent → Nat
  | .created => listener.created
  | .destroyed => listener.destroyed

def reaction (listener : LifecycleListener) (event : LifecycleEvent) : Reaction :=
  listener.act event (listener.count event)

def answer (listener : LifecycleListener) (event : LifecycleEvent) : LifecycleOutcome :=
  listener.respond event (listener.count event)

/-- Why the listener refuses a new session. Nobody can refuse its end. -/
def veto? (listener : LifecycleListener) (event : LifecycleEvent) : Option String :=
  match event, listener.answer event with
  | .created, .vetoed reason => some reason
  | _, _ => none

/-- The listener after it was told of an event. -/
def told (listener : LifecycleListener) : LifecycleEvent → LifecycleListener
  | .created => { listener with created := listener.created + 1 }
  | .destroyed => { listener with destroyed := listener.destroyed + 1 }

end LifecycleListener

def vetoText (reason : String) : String :=
  "session initialization rejected: " ++ reason

end LivePage
