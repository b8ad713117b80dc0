import LivePage.Page.Store
import LivePage.Session.Executor
import LivePage.Session.Request
import LivePage.Session.Socket
import LivePage.Session.Synchronizer
import LivePage.Text.Quoted

/-!
Contract: the session of a connection.

Owns:
- the phases of a session, from its creation to its end;
- claiming a page, and the end of a session with its page;
- the listeners to a session.

Does not own: which sessions a server knows, and what travels on them.
-/

namespace LivePage

/-- What can be asked of a session by one who watches it. -/
inductive SessionCall (α : Type) where
  | init (page : String)
  | destroy
  | addListener (listener : α)
  | removeListener (number : Nat)

/-- One who watches a session. Failures of a listener have no effect. -/
inductive SessionListener where
  /-- A listener by number and name, whether its reactions fail, what it asks of
  the session when that ends, what it does to the session's page when it is told
  of a request, and the events that it queues there when it is told of an
  invocation. -/
  | watching (number : Nat) (name : String) (fails : Bool)
      (atEnd : List (SessionCall SessionListener))
      (onRequest : Request → Reaction := fun _ => .done)
      (onInvocation : Invocation → List Event := fun _ => [])

namespace SessionListener

def number : SessionListener → Nat
  | .watching number _ _ _ _ _ => number

def name : SessionListener → String
  | .watching _ name _ _ _ _ => name

def fails : SessionListener → Bool
  | .watching _ _ fails _ _ _ => fails

def atEnd : SessionListener → List (SessionCall SessionListener)
  | .watching _ _ _ atEnd _ _ => atEnd

def onRequest : SessionListener → Request → Reaction
  | .watching _ _ _ _ onRequest _ => onRequest

def onInvocation : SessionListener → Invocation → List Event
  | .watching _ _ _ _ _ onInvocation => onInvocation

end SessionListener

/-- Why a session does not do what it was asked. -/
inductive SessionError where
  | unknownPage (page : String)
  | pageMismatch (bound requested : String)
  | destroyed (session : String)
  | executor (reason : ExecutorError)
deriving DecidableEq, Repr

def SessionError.message : SessionError → String
  | .unknownPage page => "page `" ++ page ++ "` is not registered"
  | .pageMismatch bound requested =>
      "session is bound to page `" ++ bound ++ "`, not `" ++ requested ++ "`"
  | .destroyed session => "session " ++ session ++ " has been destroyed"
  | .executor reason => reason.message

/-- Where a session stands. It has a page exactly while it is initialized. -/
inductive SessionPhase where
  | created
  | initialized (page : Nat)
  | destroyed
deriving DecidableEq, Repr, Inhabited

namespace SessionPhase

def name : SessionPhase → String
  | .created => "Created"
  | .initialized _ => "Initialized"
  | .destroyed => "Destroyed"

def page? : SessionPhase → Option Nat
  | .initialized page => some page
  | _ => none

end SessionPhase

/-- The server's side of one connection. -/
structure Session where
  number : Nat
  id : String
  phase : SessionPhase
  listeners : List SessionListener
  synchronizer : Synchronizer
  executor : Executor
deriving Inhabited

namespace Session

def new (number : Nat) (id : String) : Session :=
  ⟨number, id, .created, [], .new, .new⟩

/-- The number of the page that the session is bound to. -/
def page? (session : Session) : Option Nat :=
  session.phase.page?

def isDestroyed (session : Session) : Bool :=
  session.phase = .destroyed

def withSynchronizer (session : Session) (synchronizer : Synchronizer) : Session :=
  { session with synchronizer := synchronizer }

def addListener (session : Session) (listener : SessionListener) : Session :=
  { session with listeners := session.listeners ++ [listener] }

/-- Removes every entry of a listener, and says whether there was one. -/
def removeListener (session : Session) (number : Nat) : Session × Bool :=
  let kept := session.listeners.filter (fun listener => listener.number ≠ number)
  ({ session with listeners := kept }, kept.length ≠ session.listeners.length)

/-- Starts background work. -/
def spawn (session : Session) (hasRuntime : Bool) (task : TaskKind) :
    Except SessionError Session :=
  match session.executor.spawn hasRuntime task with
  | .ok executor => .ok { session with executor := executor }
  | .error reason => .error (.executor reason)

/-- Binds the session to a registered page, the first time it is asked to. The
last part says whether this call did it. Asked again for the same page, it
changes nothing. -/
def init (session : Session) (pages : PageStore) (pid : String) :
    Except SessionError (Session × PageStore × Bool) :=
  match session.phase with
  | .destroyed => .error (.destroyed session.id)
  | .initialized page =>
      let bound := (pages.page page).id
      if bound = pid then .ok (session, pages, false) else .error (.pageMismatch bound pid)
  | .created =>
      match pages.get? pid with
      | none => .error (.unknownPage pid)
      | some page =>
          let bind (claimed : Page) : Page :=
            claimed.withState (claimed.state.bind (.session session.number))
          .ok ({ session with phase := .initialized page }, pages.modify page bind, true)

/-- What an inspection of a session shows, by its id and phase. The socket goes
by the same id. -/
def inspection (id : String) (phase : SessionPhase) : String :=
  "Session \x7b id: " ++ Text.quoted id ++ ", socket: " ++ Text.quoted id ++
    ", state: " ++ phase.name ++ ", .. \x7d"

/-- What a call does to a destroyed session: it has no page to claim and cannot
end again, so only its listeners change. -/
def afterEnd (session : Session) : SessionCall SessionListener → Session
  | .init _ => session
  | .destroy => session
  | .addListener listener => session.addListener listener
  | .removeListener number => (session.removeListener number).1

/-- Tells listeners one after another that the session has ended, and does what
they ask for. -/
def notifyEnd (session : Session) (listeners : List SessionListener) : Session :=
  listeners.foldl (fun session listener => listener.atEnd.foldl afterEnd session) session

end Session

/-- A socket and the session that was made for it. -/
structure Connection where
  socket : Socket
  session : Session
  /-- Whether someone besides the server's table refers to the session. -/
  isHeld : Bool
deriving Inhabited

namespace Connection

/-- A new connection, whose session goes by the id of the socket. -/
def new (number : Nat) (id : String) : Connection :=
  ⟨(Socket.new id).attach, Session.new number id, true⟩

def withSocket (connection : Connection) (socket : Socket) : Connection :=
  { connection with socket := socket }

def withSession (connection : Connection) (session : Session) : Connection :=
  { connection with session := session }

/-- What the end of a session leaves: the connection, the pages, and the
listeners that were told. -/
abbrev Ended := Connection × PageStore × List SessionListener

/-- Ends the session. A page that it is bound to ends with it. Asked again, it
changes nothing. -/
def destroy (connection : Connection) (pages : PageStore) : Ended :=
  let session := connection.session
  let (executor, _) := session.executor.shutDown
  match session.phase with
  | .destroyed => (connection, pages, [])
  | .created =>
      let ended := { session with phase := .destroyed, executor := executor }
      (⟨connection.socket.detach, ended, connection.isHeld⟩, pages, [])
  | .initialized page =>
      let left := (pages.modify page Page.destroy).unregister (pages.page page).id
      let ended := { session with
        phase := .destroyed, executor := executor, synchronizer := session.synchronizer.start }
      (⟨connection.socket.detach, ended.notifyEnd session.listeners, connection.isHeld⟩, left,
        session.listeners)

end Connection

end LivePage
