import LivePage.Blueprint.Cache
import LivePage.Page.Store
import LivePage.Resource.Store
import LivePage.Server.Conduct
import LivePage.Wire.Limits

/-!
Contract: the state of a server.

Owns:
- the pages, connections, handlers, listeners and resources of a server;
- the journal of what happened, in order;
- look-up of connections, sessions and pages.

Does not own: what messages and connections do to the state.
-/

namespace LivePage

/-- Something that happened, as the outside can tell. -/
inductive Entry where
  /-- A frame was sent on a connection. -/
  | frame (connection : Nat) (frame : Frame)
  /-- A session listener was told of a request that was handled. -/
  | request (listener : SessionListener) (request : Request)
  /-- A session listener was told of an invocation that was sent. -/
  | invocation (listener : SessionListener) (invocation : Invocation)
  /-- A session listener was told of the end of the session. -/
  | sessionEnded (listener : SessionListener) (session : String)
  | lifecycle (event : LifecycleEvent) (listener session : String) (page : Option String)
  | clientLog (level : LogLevel) (session page message : String)
  /-- An invocation reached one who watches a page. -/
  | observed (invocation : Invocation)
  | note (entry : Json)

/-- Everything that one server shares between its connections. -/
structure Server where
  files : FileSystem
  cache : BlueprintCache
  pages : PageStore
  connections : Array Connection
  /-- The numbers of the connections whose sessions the server knows, by the id
  of the session. -/
  sessions : Dict Nat
  handlers : Dict RequestHandler
  lifecycle : List LifecycleListener
  resources : ResourceStore
  limits : MessageLimits
  /-- How many seconds a page may wait to be claimed. -/
  pageTtl : Nat
  /-- The time, in seconds. -/
  now : Nat
  /-- How many events one message may dispatch. -/
  eventBound : Nat
  /-- The request that is being processed. -/
  current : Option Request
  journal : List Entry

namespace Server

def registry (server : Server) : ComponentRegistry :=
  server.cache.parser.registry

def connection (server : Server) (number : Nat) : Connection :=
  server.connections[number]?.getD default

def session (server : Server) (number : Nat) : Session :=
  (server.connection number).session

def socket (server : Server) (number : Nat) : Socket :=
  (server.connection number).socket

def modifyConnection (server : Server) (number : Nat) (change : Connection → Connection) :
    Server :=
  { server with connections := server.connections.modify number change }

def modifySocket (server : Server) (number : Nat) (change : Socket → Socket) : Server :=
  server.modifyConnection number (fun connection =>
    connection.withSocket (change connection.socket))

def modifySession (server : Server) (number : Nat) (change : Session → Session) : Server :=
  server.modifyConnection number (fun connection =>
    connection.withSession (change connection.session))

/-- Adds to the journal. -/
def record (server : Server) (entries : List Entry) : Server :=
  { server with journal := server.journal ++ entries }

/-- Whether a session still exists: the server knows it, or someone holds it. -/
def isAlive (server : Server) (number : Nat) : Bool :=
  server.sessions.get? (server.session number).id = some number ||
    (server.connection number).isHeld

/-- Whether a socket still leads to its session. -/
def reachesSession (server : Server) (number : Nat) : Bool :=
  (server.socket number).isAttached && server.isAlive number

/-- The number of the page that a session is bound to. -/
def pageOf (server : Server) (number : Nat) : Option Nat :=
  (server.session number).page?

/-- The id of the page that a session is bound to. -/
def pageIdOf (server : Server) (number : Nat) : Option String :=
  (server.pageOf number).map (fun page => (server.pages.page page).id)

def putPage (server : Server) (number : Nat) (page : Page) : Server :=
  { server with pages := server.pages.put number page }

def modifyPage (server : Server) (number : Nat) (change : Page → Page) : Server :=
  { server with pages := server.pages.modify number change }

/-- Changes the state of the page of a session, if it has one. -/
def modifyPageOf (server : Server) (number : Nat) (change : PageState → PageState) : Server :=
  match server.pageOf number with
  | none => server
  | some page =>
      server.modifyPage page (fun live => live.withState (change live.state))

/-- Registers a new page. -/
def createPage (server : Server) (id src : String) : Server :=
  { server with pages := server.pages.register (Page.new id src server.now) }

/-- Registers a handler for a type of request that has none. -/
def registerHandler (server : Server) (handler : RequestHandler) : Except String Server :=
  if server.handlers.contains handler.requestType then
    .error ("a handler for request type `" ++ handler.requestType ++ "` is already registered")
  else .ok { server with handlers := server.handlers.insert handler.requestType handler }

def addLifecycleListener (server : Server) (listener : LifecycleListener) : Server :=
  { server with lifecycle := server.lifecycle ++ [listener] }

/-- Removes a lifecycle listener, and says whether it was there. -/
def removeLifecycleListener (server : Server) (number : Nat) : Server × Bool :=
  let kept := server.lifecycle.filter (fun listener => listener.number ≠ number)
  ({ server with lifecycle := kept }, kept.length ≠ server.lifecycle.length)

/-- More events than any message is meant to dispatch. -/
def standardEventBound : Nat := 1000000

def standardHandlers : Dict RequestHandler :=
  Dict.ofList ([.init, .event, .log].map (fun handler : RequestHandler =>
    (handler.requestType, handler)))

/-- A server of the pages below a directory. -/
def new (files : FileSystem) (locator : Locator) (limits : MessageLimits) (pageTtl : Nat)
    (precompile : List String) : Server where
  files := files
  cache :=
    precompile.foldl (fun cache key => (cache.addPrecompile key).1)
      (BlueprintCache.new ((PageParser.new ComponentRegistry.core).withLocator locator) locator)
  pages := .empty
  connections := #[]
  sessions := .empty
  handlers := standardHandlers
  lifecycle := []
  resources := .empty
  limits := limits
  pageTtl := pageTtl
  now := 0
  eventBound := standardEventBound
  current := none
  journal := []

/-- A server of the pages below a directory given by its path; none if that is
no directory of the file system. -/
def open? (files : FileSystem) (webRoot : String) (limits : MessageLimits) (pageTtl : Nat)
    (precompile : List String) : Option Server :=
  match Locator.new files webRoot with
  | .ok locator => some (new files locator limits pageTtl precompile)
  | .error _ => none

end Server

end LivePage
