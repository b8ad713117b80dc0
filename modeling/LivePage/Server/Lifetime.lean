import LivePage.Server.Delivery

/-!
Contract: beginnings and ends on a server.

Owns:
- connections that are established and closed;
- the sessions' claim on their pages, and their end;
- telling the lifecycle listeners;
- the end of unclaimed pages and of the server itself.

Does not own: what happens on a session in between.
-/

namespace LivePage.Server

/-- Tells a lifecycle listener about a session, and lets it act on the page of
the session. -/
def tellLifecycle (number : Nat) (event : LifecycleEvent) (listener : LifecycleListener)
    (server : Server) : Server :=
  ((server.record [.lifecycle event listener.name (server.session number).id
    (server.pageIdOf number)]).reactOn number (listener.reaction event)).1

/-- Tells lifecycle listeners one after another. A veto against a new session
ends the round and is the result. -/
def tellAll (number : Nat) (event : LifecycleEvent) :
    List LifecycleListener → Server → Server × List LifecycleListener × Option String
  | [], server => (server, [], none)
  | listener :: rest, server =>
      let next := tellLifecycle number event listener server
      let told := listener.told event
      match listener.veto? event with
      | some reason => (next, told :: rest, some reason)
      | none =>
          let (last, others, veto) := tellAll number event rest next
          (last, told :: others, veto)

/-- The generated content of a page goes with its session. -/
def dropContent (server : Server) (number : Nat) (event : LifecycleEvent) : Server :=
  match event, server.pageIdOf number with
  | .destroyed, some page =>
      { server with resources := (server.resources.dropNamespace page).1 }
  | _, _ => server

/-- Tells the lifecycle listeners about a session, after its generated content
was dropped if it ends. -/
def notifyLifecycle (server : Server) (number : Nat) (event : LifecycleEvent) :
    Server × Option String :=
  let (next, lifecycle, veto) :=
    tellAll number event server.lifecycle (server.dropContent number event)
  ({ next with lifecycle := lifecycle }, veto)

/-- Makes a session for a new socket. A session known by the same id is
replaced. The result is the number of the connection. -/
def connect (server : Server) (id : String) : Server × Nat :=
  let number := server.connections.size
  ({ server with
      connections := server.connections.push (Connection.new number id)
      sessions := server.sessions.insert id number }, number)

/-- Gives up the outside hold on a session. -/
def letGo (server : Server) (number : Nat) : Server :=
  server.modifyConnection number (fun connection => { connection with isHeld := false })

/-- Binds a session to a page. -/
def initSession (server : Server) (number : Nat) (pid : String) :
    Except SessionError (Server × Bool) :=
  match (server.session number).init server.pages pid with
  | .error error => .error error
  | .ok (session, pages, isFirst) =>
      let next := server.modifySession number (fun _ => session)
      .ok ({ next with pages := pages }, isFirst)

/-- Ends a session and the page it is bound to. -/
def destroySession (server : Server) (number : Nat) : Server :=
  let (connection, pages, told) := (server.connection number).destroy server.pages
  let next := server.modifyConnection number (fun _ => connection)
  let ended := { next with pages := pages }
  ended.record (told.map (fun listener => .sessionEnded listener connection.session.id))

/-- Forgets a session. -/
def unregister (server : Server) (id : String) : Server :=
  { server with sessions := server.sessions.erase id }

/-- Ends the session of a socket that was closed, after telling the lifecycle
listeners. Unfinished messages are forgotten even if no session is left. -/
def disconnect (server : Server) (number : Nat) : Server :=
  let cleared := server.modifySocket number Socket.clearFragments
  if cleared.reachesSession number then
    let (told, _) := cleared.notifyLifecycle number .destroyed
    (told.destroySession number).unregister (told.session number).id
  else cleared

/-- Closes the socket of a session and ends the session. -/
def shutDownSession (server : Server) (number : Nat) : Server :=
  let (told, _) := server.notifyLifecycle number .destroyed
  let closed := told.modifySocket number Socket.close
  (closed.destroySession number).unregister (closed.session number).id

/-- Ends all sessions. -/
def shutDown (server : Server) : Server :=
  server.sessions.toList.foldl (fun server entry => server.shutDownSession entry.2) server

/-- Ends pages that were not claimed in time, and says how many. -/
def reapPages (server : Server) : Server × Nat :=
  let (pages, count) := server.pages.reap server.pageTtl server.now
  ({ server with pages := pages }, count)

/-- Reads the queued pages ahead. -/
def ready (server : Server) : Server × PrecompileReport :=
  let (cache, report) := server.cache.precompile server.files
  ({ server with cache := cache }, report)

end LivePage.Server
