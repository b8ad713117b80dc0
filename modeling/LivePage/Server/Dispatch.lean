import LivePage.Server.Handling

/-!
Contract: messages of clients.

Owns:
- putting fragments together to messages, and decoding them;
- processing a request: its session's page, its handler, and the events that
  were queued on the way;
- what a client hears of a failure.

Does not own: how single requests are handled.
-/

namespace LivePage.Server

/-- Tells a listener of a session that a request was handled, and lets it act on
the page of the session. -/
def tellRequest (request : Request) (server : Server) (listener : SessionListener) : Server :=
  ((server.record [.request listener request]).reactOn request.session
    (listener.onRequest request)).1

/-- Tells the listeners of a session one after another that a request was handled. -/
def notifyRequest (server : Server) (request : Request) : Server :=
  (server.session request.session).listeners.foldl (tellRequest request) server

/-- Dispatches the events queued on the page of a session. -/
def drainPageOf (server : Server) (number : Nat) : Attempt Unit :=
  match server.pageOf number with
  | none => (server, .ok ())
  | some page =>
      let (live, effects, outcome) := (server.pageNow page).drain server.eventBound 0
      let next := (server.putBack page live).deliverAll effects
      match outcome with
      | .drained _ => (next, .ok ())
      | .failed error => (next, .error [error.message])
      | .unfinished => (next, .error ["too many events"])

/-- Handles a request with its handler, tells the session's listeners, and
dispatches what was queued. -/
def serve (server : Server) (handler : RequestHandler) (request : Request) : Attempt Unit :=
  match server.handle handler request with
  | (next, .error chain) => (next, .error chain)
  | (next, .ok ()) => (next.notifyRequest request).drainPageOf request.session

/-- Serves a request as the one being processed. -/
def serveAlone (server : Server) (handler : RequestHandler) (request : Request) :
    Attempt Unit :=
  let (next, outcome) := { server with current := some request }.serve handler request
  ({ next with current := none }, outcome)

/-- Binds the session of a request to the page it names, and serves it. -/
def attempt (server : Server) (request : Request) : Attempt Unit :=
  match server.initSession request.session request.pid with
  | .error error => (server, .error [error.message])
  | .ok (bound, _) =>
      match bound.handlers.get? request.requestType with
      | none =>
          (bound, .error
            ["no handler registered for request type `" ++ request.requestType ++ "`"])
      | some handler => bound.serveAlone handler request

/-- Processes a request. After a failure nothing stays queued on the page, and
the client is told. -/
def process (server : Server) (number : Nat) (envelope : Envelope) : Server :=
  let request : Request := ⟨number, (server.session number).id, envelope⟩
  match server.attempt request with
  | (next, .ok ()) => next
  | (next, .error chain) =>
      (next.modifyPageOf number PageState.clearQueue).sendError number chain

/-- Acts on a decoded message, if the socket still leads to a session. -/
def dispatch (server : Server) (number : Nat) (decoded : Except WireError Envelope) : Server :=
  if server.reachesSession number then
    match decoded with
    | .ok envelope => server.process number envelope
    | .error error => server.sendError number error.chain
  else server

/-- Refuses a message that grew too large. -/
def reject (server : Server) (number : Nat) (error : WireError) : Server :=
  if server.reachesSession number then server.sendError number error.chain else server

def receiveText (server : Server) (number : Nat) (fragment : String) (isLast : Bool) : Server :=
  let (inbox, outcome) :=
    (server.socket number).inbox.pushText fragment isLast server.limits.message
  let next := server.modifySocket number (fun socket => { socket with inbox := inbox })
  match outcome with
  | .ok none => next
  | .ok (some message) => next.dispatch number (Envelope.decodeText message)
  | .error error => next.reject number error

def receiveBinary (server : Server) (number : Nat) (fragment : List UInt8) (isLast : Bool) :
    Server :=
  let (inbox, outcome) :=
    (server.socket number).inbox.pushBinary fragment isLast server.limits.message
  let next := server.modifySocket number (fun socket => { socket with inbox := inbox })
  match outcome with
  | .ok none => next
  | .ok (some message) =>
      next.dispatch number (Envelope.decodeBinary server.limits.preamble message)
  | .error error => next.reject number error

end LivePage.Server
