import LivePage.Page.Materialize
import LivePage.Server.Lifetime

/-!
Contract: how requests are handled.

Owns:
- running a handler's conduct;
- the handlers that every server has: initialization of a page, events of the
  client, and its log.

Does not own: how a request arrives, and what happens after its handler.
-/

namespace LivePage

namespace Server

/-- A server and how a step ended: with success, or with the messages of an
error and its causes, the outermost first. -/
abbrev Attempt (α : Type) := Server × Except (List String) α

/-- What a handler sees of its request's session. -/
def viewOf (server : Server) (request : Request) : RequestView where
  request := request
  phase := (server.session request.session).phase
  page := server.pageIdOf request.session
  current := server.current

/-- Runs a conduct about a request. -/
def perform (request : Request) : Conduct → Server → Attempt Unit
  | .done, server => (server, .ok ())
  | .fail chain, server => (server, .error chain)
  | .look next, server => perform request (next (server.viewOf request)) server
  | .note entry next, server => perform request next (server.record [.note entry])
  | .queueEvent event next, server =>
      perform request next
        (server.modifyPageOf request.session (fun page => page.queueEvent event))
  | .invoke invocation next, server =>
      perform request next (server.invokeOnPage request.session invocation)
  | .react reaction next, server =>
      let (acted, answer) := server.reactOn request.session reaction
      perform request (next answer) acted
  | .startQueueing next, server =>
      perform request next (server.startQueueing request.session)
  | .stopQueueing next, server => perform request next (server.stopQueueing request.session)
  | .clearQueued next, server => perform request next (server.clearQueued request.session)
  | .destroySession next, server =>
      perform request next (server.destroySession request.session)
  | .reenter next, server => perform request next { server with current := none }

def refuse {α : Type} (server : Server) (error : RequestError) : Attempt α :=
  (server, .error error.chain)

/-- The page of a request's session. -/
def requirePage (server : Server) (request : Request) : Except RequestError Nat :=
  match server.pageOf request.session with
  | some page => .ok page
  | none => .error (.noPage request.sessionId)

/-- Takes over what the client says about itself. -/
def acceptBrowser (server : Server) (request : Request) (page : Nat) :
    Except RequestError Server :=
  match request.param Json.asObject "browser" with
  | .error error => .error error
  | .ok none => .ok server
  | .ok (some browser) =>
      .ok (server.modifyPage page (fun live =>
        live.withState (live.state.setBrowser (Dict.ofList browser))))

/-- Loads the blueprint that a page shows. -/
def loadBlueprint (server : Server) (page : Nat) : Attempt Blueprint :=
  let shown := server.pages.page page
  match server.cache.get server.files shown.state.src with
  | (cache, .ok shared) => ({ server with cache := cache }, .ok shared.blueprint)
  | (cache, .error error) =>
      ({ server with cache := cache },
        .error (("unable to load page for " ++ shown.id) :: error.chain))

/-- Makes the components of a blueprint on a page. The result names the
top-level ones. -/
def materialize (server : Server) (page : Nat) (blueprint : Blueprint) :
    Attempt (List String) :=
  let live := server.pages.page page
  let (building, outcome) := live.state.materialize blueprint.tree none
  let made := building.page.queueAll (server.echoes building.emitted)
  let next := (server.putPage page (live.withState made)).deliverAll
    (Page.effectsOf building.emitted)
  (next, outcome.mapError (fun error => [error.message]))

/-- Offers a session to the lifecycle listeners. After a veto the components
made for it are discarded. -/
def offer (server : Server) (number page : Nat) (made : List String) : Attempt Unit :=
  match server.notifyLifecycle number .created with
  | (next, none) =>
      (next.modifyPage page (fun live => live.withState live.state.markInitialized), .ok ())
  | (next, some reason) =>
      let discardAll (state : PageState) : PageState :=
        made.foldl (fun state id => (state.discard id).1) state
      (next.modifyPage page (fun live => live.withState (discardAll live.state)),
        .error [vetoText reason])

/-- Makes the components of the page of a session, once. -/
def initializePage (server : Server) (request : Request) : Attempt Unit :=
  match server.requirePage request with
  | .error error => server.refuse error
  | .ok page =>
      if (server.pages.page page).state.isInitialized then (server, .ok ())
      else
        match server.acceptBrowser request page with
        | .error error => server.refuse error
        | .ok informed =>
            match informed.loadBlueprint page with
            | (next, .error chain) => (next, .error chain)
            | (next, .ok blueprint) =>
                match next.materialize page blueprint with
                | (made, .error chain) => (made, .error chain)
                | (made, .ok ids) => made.offer request.session page ids

/-- Initializes a page. Its invocations travel as one batch; after a failure
none of them does. -/
def handleInit (server : Server) (request : Request) : Attempt Unit :=
  match (server.startQueueing request.session).initializePage request with
  | (next, .ok ()) => (next.stopQueueing request.session, .ok ())
  | (next, .error chain) =>
      ((next.clearQueued request.session).stopQueueing request.session, .error chain)

/-- Queues the event that a request tells of. -/
def handleEvent (server : Server) (request : Request) : Attempt Unit :=
  match server.requirePage request with
  | .error error => server.refuse error
  | .ok page =>
      match request.required Json.asText "type" with
      | .error error => server.refuse error
      | .ok eventType =>
          match request.required Json.asText "target" with
          | .error error => server.refuse error
          | .ok target =>
              let event : Event :=
                ⟨eventType, target, (request.get? "data").getD .null, request.envelope.blob⟩
              (server.modifyPage page (fun live =>
                live.withState (live.state.queueEvent event)), .ok ())

/-- The message of a client's log entry: a text, or the text of another value. -/
def logMessage (request : Request) : String :=
  match request.get? "message" with
  | none => ""
  | some (.str text) => text
  | some value => value.render

/-- Notes a log entry of the client. -/
def handleLog (server : Server) (request : Request) : Server :=
  server.record [.clientLog (LogLevel.ofWord ((request.text? "level").getD "info"))
    request.sessionId request.pid (logMessage request)]

def handle (server : Server) (handler : RequestHandler) (request : Request) : Attempt Unit :=
  match handler with
  | .init => server.handleInit request
  | .event => server.handleEvent request
  | .log => (server.handleLog request, .ok ())
  | .custom _ respond => perform request (respond request) server

end Server

end LivePage
