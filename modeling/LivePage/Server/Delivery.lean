import LivePage.Server.Basic

/-!
Contract: how invocations reach the clients.

Owns:
- sending a frame on a connection, and telling the listeners of its session;
- the brackets of a session, and what its page emits when something acts on it;
- reporting an error to a client.

Does not own: who makes invocations.
-/

namespace LivePage

/-- What the alert about an error says: the innermost cause, and behind it all
messages from the outermost on, unless there is just one. -/
def alertText : List String → String
  | [] => ""
  | [only] => only
  | outermost :: causes =>
      (causes.getLast?.getD outermost) ++ "\n\n" ++ outermost ++
        String.join (causes.map (fun cause => "\ncaused by: " ++ cause))

def alertTitle : String := "Unexpected Error"

def alertFlavor : String := "danger"

namespace Server

/-- The entries for the listeners of a session about invocations that were sent. -/
def invocationEntries (listeners : List SessionListener) (invocations : List Invocation) :
    List Entry :=
  invocations.flatMap (fun invocation =>
    listeners.map (fun listener => Entry.invocation listener invocation))

/-- Sends a frame, unless the socket is closed, and tells the session's
listeners of each invocation in it. -/
def send (server : Server) (number : Nat) (frame : Frame) : Server :=
  if (server.socket number).isOpen then
    server.record (.frame number frame ::
      invocationEntries (server.session number).listeners frame.invocations)
  else server

def sendAny (server : Server) (number : Nat) (frame : Option Frame) : Server :=
  match frame with
  | some frame => server.send number frame
  | none => server

/-- Reports an error to the client, by the messages of it and its causes. The
session's listeners are not told. -/
def sendError (server : Server) (number : Nat) (chain : List String) : Server :=
  if (server.socket number).isOpen then
    server.record
      [.frame number (.single (.alert (alertText chain) alertTitle alertFlavor))]
  else server

/-- Takes over a session's synchronizer, and sends what it lets out if the
session still exists. -/
def release (server : Server) (number : Nat) (step : Synchronizer × Option Frame) : Server :=
  let next := server.modifySession number (fun session => session.withSynchronizer step.1)
  if next.isAlive number then next.sendAny number step.2 else next

def startQueueing (server : Server) (number : Nat) : Server :=
  server.modifySession number (fun session =>
    session.withSynchronizer session.synchronizer.start)

def clearQueued (server : Server) (number : Nat) : Server :=
  server.modifySession number (fun session =>
    session.withSynchronizer session.synchronizer.clear)

/-- The events that the listeners of a session queue when they are told of what a
frame holds. Of a frame that does not reach the client they are not told. -/
def answers (server : Server) (number : Nat) (frame : Option Frame) : List Event :=
  if server.isAlive number && (server.socket number).isOpen then
    (frame.toList.flatMap Frame.invocations).flatMap (fun invocation =>
      (server.session number).listeners.flatMap (fun listener => listener.onInvocation invocation))
  else []

/-- Queues events on the page of a session, if it has one. -/
def queueOn (server : Server) (number : Nat) (events : List Event) : Server :=
  server.modifyPageOf number (fun page => page.queueAll events)

/-- Takes over a session's synchronizer with what it lets out, and with what the
listeners queue about that. -/
def releaseHeard (server : Server) (number : Nat) (step : Synchronizer × Option Frame) : Server :=
  (server.queueOn number (server.answers number step.2)).release number step

def stopQueueing (server : Server) (number : Nat) : Server :=
  server.releaseHeard number (server.session number).synchronizer.stop

/-- Makes an invocation on a session. -/
def invoke (server : Server) (number : Nat) (invocation : Invocation) : Server :=
  server.releaseHeard number ((server.session number).synchronizer.invoke invocation)

/-- Lets an effect of a page take its way. What is queued about an invocation was
queued when the page made it. -/
def deliver (server : Server) : PageEffect → Server
  | .note entry => server.record [.note entry]
  | .emission ⟨.observer, invocation⟩ => server.record [.observed invocation]
  | .emission ⟨.session number, invocation⟩ =>
      server.release number ((server.session number).synchronizer.invoke invocation)

def deliverAll (server : Server) (effects : List PageEffect) : Server :=
  effects.foldl deliver server

/-- What is queued at once about an invocation that goes to a sink. -/
def echo (server : Server) (sink : Option Sink) (invocation : Invocation) : List Event :=
  match sink with
  | some (.session number) =>
      server.answers number ((server.session number).synchronizer.invoke invocation).2
  | _ => []

/-- What is queued at once about what a page emits. -/
def echoes (server : Server) (emissions : List Emission) : List Event :=
  emissions.flatMap (fun emission => server.echo emission.sink emission.invocation)

/-- A page with those who hear its invocations now. -/
def pageNow (server : Server) (page : Nat) : Page :=
  let live := server.pages.page page
  live.withEcho (server.echo live.state.sink)

/-- Puts a page back without those who heard it in the meantime. -/
def putBack (server : Server) (page : Nat) (live : Page) : Server :=
  server.putPage page (live.withEcho (server.pages.page page).echo)

/-- Makes an invocation on the page of a session: it goes where the page's
invocations go. -/
def invokeOnPage (server : Server) (number : Nat) (invocation : Invocation) : Server :=
  match server.pageOf number with
  | none => server
  | some page =>
      let emissions := (server.pages.page page).state.emit invocation
      (server.queueOn number (server.echoes emissions)).deliverAll (Page.effectsOf emissions)

/-- Acts on the page of a session. The answer is how that ended, none without a
page. -/
def reactOn (server : Server) (number : Nat) (reaction : Reaction) :
    Server × Option (Except EventError Unit) :=
  match server.pageOf number with
  | none => (server, none)
  | some page =>
      let (live, effects, outcome) := Page.run reaction (server.pageNow page)
      ((server.putBack page live).deliverAll effects, some outcome)

end Server

end LivePage
