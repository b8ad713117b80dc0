import LivePage.Console.CacheCommand
import LivePage.Console.Conduct
import LivePage.Console.PageCommand
import LivePage.Console.ResourceCommand
import LivePage.Console.SessionCommand
import LivePage.Http.Routes
import LivePage.Server.Dispatch

/-!
Contract: commands to a whole server.

Owns:
- the names by which commands refer to connections and listeners;
- the commands, what each answers, and the journal of each.

Does not own: the rules of the server.
-/

namespace LivePage.Console

open Json (nat nats optionalText ofFields)

/-- A server with the names that commands use. -/
structure ServerConsole where
  server : Server
  /-- The number of the last connection of each name. -/
  connections : Dict Nat
  /-- The blueprints shown so far. -/
  shown : List Nat
  sessionListeners : Dict SessionListener
  lifecycleListeners : Dict Nat
  nextListener : Nat
  /-- The ids that pages made for HTTP requests have got. -/
  generated : List String

namespace ServerConsole

/-- A console's next state and the answer to a command. -/
abbrev Answer := ServerConsole × Json

def new (server : Server) : ServerConsole :=
  ⟨server, .empty, [], .empty, .empty, 0, []⟩

def withServer (console : ServerConsole) (server : Server) : ServerConsole :=
  { console with server := server }

def noSocket : Json := .str "no socket"

def noSession : Json := .str "no session"

def noPage : Json := .str "no page"

def noListener : Json := .str "no listener"

def sessionFailure (error : SessionError) : Json :=
  let kind :=
    match error with
    | .unknownPage _ => "UnknownPage"
    | .pageMismatch _ _ => "PageMismatch"
    | .destroyed _ => "Destroyed"
    | .executor _ => "Executor"
  failure kind error.message

/-- A session with its socket. -/
def sessionForm (server : Server) (number : Nat) : Json :=
  let session := server.session number
  let socket := server.socket number
  ofFields [
    ("state", .str session.phase.name),
    ("destroyed", .bool session.isDestroyed),
    ("page", optionalText (server.pageIdOf number)),
    ("queueing", .bool session.synchronizer.isQueueing),
    ("queued", nat session.synchronizer.pending.length),
    ("executor_shutdown", .bool session.executor.isShutDown),
    ("outstanding", nat session.executor.outstanding),
    ("attached", .bool socket.isAttached),
    ("fragments", .bool socket.inbox.isPending)]

/-- Acts on the connection that a command names. -/
def onSocket (console : ServerConsole) (step : Json) (act : Nat → Answer) : Answer :=
  match console.connections.get? (step.textAt "socket") with
  | some number => act number
  | none => (console, noSocket)

/-- Acts on the session that a command names, while the console holds it. -/
def onSession (console : ServerConsole) (step : Json) (act : Nat → Answer) : Answer :=
  match console.connections.get? (step.textAt "socket") with
  | some number =>
      if (console.server.connection number).isHeld then act number else (console, noSession)
  | none => (console, noSession)

/-- Connects under a name. A connection that had the name before is let go. -/
def connect (console : ServerConsole) (name : String) : Answer :=
  let before :=
    match console.connections.get? name with
    | some number => console.server.letGo number
    | none => console.server
  let (server, number) := before.connect name
  ({ console with
      server := server, connections := console.connections.insert name number },
    sessionForm server number)

def disconnect (console : ServerConsole) (number : Nat) : Answer :=
  let server := console.server.disconnect number
  let answer :=
    if (server.connection number).isHeld then
      ofFields [
        ("sessions", nat server.sessions.size), ("pages", nat server.pages.size),
        ("session", sessionForm server number)]
    else noSession
  (console.withServer server, answer)

def registerHandler (console : ServerConsole) (step : Json) : Answer :=
  let handler : RequestHandler :=
    match step.textAt "builtin" with
    | "event" => .event
    | "log" => .log
    | "init" => .init
    | _ => .custom (step.textAt "type") (declaredConduct (step.listAt "actions"))
  let known := console.server.handlers.contains handler.requestType
  let (server, registered) :=
    match console.server.registerHandler handler with
    | .ok server => (server, Json.str "ok")
    | .error message => (console.server, failure "DuplicateHandler" message)
  (console.withServer server, ofFields [("known", .bool known), ("registered", registered)])

def sessionListener (console : ServerConsole) (number : Nat) (step : Json) : Answer :=
  let name := step.textAt "name"
  if step.flagAt "remove" false then
    match console.sessionListeners.get? name with
    | none => (console, noListener)
    | some listener =>
        let (session, removed) :=
          (console.server.session number).removeListener listener.number
        (console.withServer (console.server.modifySession number (fun _ => session)),
          .bool removed)
  else
    let listener : SessionListener :=
      .watching console.nextListener name (step.flagAt "fail" false) []
    let server := console.server.modifySession number (fun session =>
      session.addListener listener)
    ({ console with
        server := server, nextListener := console.nextListener + 1,
        sessionListeners := console.sessionListeners.insert name listener }, .str "ok")

def lifecycleListener (console : ServerConsole) (step : Json) : Answer :=
  let name := step.textAt "name"
  if step.flagAt "remove" false then
    match console.lifecycleListeners.get? name with
    | none => (console, noListener)
    | some number =>
        let (server, removed) := console.server.removeLifecycleListener number
        (console.withServer server, .bool removed)
  else
    let number := console.nextListener
    ({ console with
        server := console.server.addLifecycleListener (declaredLifecycle number step),
        nextListener := number + 1,
        lifecycleListeners := console.lifecycleListeners.insert name number }, .str "ok")

/-- Starts background work on a session. What ends by itself has ended before
the next command. -/
def spawn (console : ServerConsole) (number : Nat) (step : Json) (task : TaskKind) : Answer :=
  match (console.server.session number).spawn (step.flagAt "runtime" false) task with
  | .ok session =>
      let settled := { session with executor := session.executor.settle }
      (console.withServer (console.server.modifySession number (fun _ => settled)), .str "ok")
  | .error error => (console, sessionFailure error)

def sessionCommand (console : ServerConsole) (number : Nat) (step : Json) : Answer :=
  let shown (server : Server) : Answer :=
    (console.withServer server, sessionForm server number)
  let server := console.server
  match step.textAt "call" with
  | "init" =>
      match server.initSession number (step.textAt "pid") with
      | .ok (next, isFirst) => (console.withServer next, .bool isFirst)
      | .error error => (console, sessionFailure error)
  | "spawn" => console.spawn number step .endless
  | "execute" => console.spawn number step .ending
  | "destroy" => shown (server.destroySession number)
  | "start" => shown (server.startQueueing number)
  | "stop" => shown (server.stopQueueing number)
  | "clear" => shown (server.clearQueued number)
  | _ => shown server

/-- Carries out a page command on a registered page. -/
def onPage (console : ServerConsole) (step : Json) : Answer :=
  let server := console.server
  match server.pages.get? (step.textAt "pid") with
  | none => (console, noPage)
  | some number =>
      let setup : ParserSetup := ⟨PageParser.new server.registry, []⟩
      let answer := pageCommand setup server.files (server.pages.page number) step
      let next := (server.putPage number answer.page).deliverAll answer.effects
      (console.withServer next, answer.result)

def cacheCommand (console : ServerConsole) (step : Json) : Answer :=
  let server := console.server
  let (next, result) :=
    (⟨server.files, server.cache, console.shown⟩ : CacheConsole).command step
  ({ console with
      server := { server with files := next.files, cache := next.cache }, shown := next.shown },
    result)

/-- Adds a definition to the components that pages may use. -/
def define (console : ServerConsole) (definition : Definition) : Answer :=
  let server := console.server
  match server.registry.register definition with
  | .error error => (console, registryFailure error)
  | .ok registry =>
      let cache := { server.cache with parser := { server.cache.parser with registry := registry } }
      (console.withServer { server with cache := cache }, .str definition.tag)

def httpFailure (error : HttpError) : Json :=
  failure "Http" error.message

def bodyForm (body : List UInt8) : Json :=
  match Text.decodeUtf8? body with
  | some text => ofFields [("text", .str text)]
  | none => ofFields [("hex", .str (Text.hexText body))]

def responseForm (response : HttpResponse) : Json :=
  ofFields [
    ("status", nat response.status), ("type", optionalText response.contentType),
    ("etag", optionalText response.etag), ("body", bodyForm response.body)]

/-- Sends an HTTP request. A page made for it gets the fresh id, which is
remembered if the response tells it. -/
def http (console : ServerConsole) (step : Json) (freshId : String) : Answer :=
  let headers := (step.listAt "headers").map (fun header =>
    ((header.item 0).textOf, (header.item 1).textOf))
  let path := step.textAt "path"
  match HttpRequest.build ((step.textAt? "method").getD "GET") path headers with
  | .error error => (console, httpFailure error)
  | .ok request =>
      let (server, response) := console.server.respond request freshId
      let tells := Text.startsWith "/page" path && response.status = 200 && !response.body.isEmpty
      ({ console with
          server := server,
          generated := if tells then console.generated ++ [freshId] else console.generated },
        responseForm response)

def overview (server : Server) (known : Option String) : Json :=
  ofFields [
    ("sessions", nat server.sessions.size), ("empty", .bool server.sessions.isEmpty),
    ("pages", nat server.pages.size), ("no_pages", .bool server.pages.isEmpty),
    ("namespaces", nat server.resources.size), ("cached", nat server.cache.size),
    ("tags", Json.strings server.registry.tags),
    ("limits", nats [server.limits.preamble, server.limits.message]),
    ("ttl", nat server.pageTtl), ("metrics", .null), ("known", optionalText known)]

def application (console : ServerConsole) (step : Json) : Answer :=
  let server := console.server
  match step.textAt "call" with
  | "ready" =>
      let (next, report) := server.ready
      (console.withServer next, CacheConsole.report report)
  | "reap" =>
      let (next, count) := server.reapPages
      (console.withServer next,
        ofFields [("reaped", nat count), ("pages", nat next.pages.size)])
  | "shutdown" =>
      let next := server.shutDown
      (console.withServer next, nat next.sessions.size)
  | _ =>
      let socket := step.textAt "socket"
      (console, overview server (if server.sessions.contains socket then some socket else none))

/-- The envelope that a command gives in parts. -/
def declaredEnvelope (step : Json) : Envelope :=
  ⟨step.textAt "pid", step.textAt "type", Dict.ofList (step.part "data").fieldsOf, none⟩

/-- Carries out a command; `do` names it. A page made on the way may get the
fresh id. -/
def command (console : ServerConsole) (step : Json) (freshId : String) : Answer :=
  let server := console.server
  let sent (next : Server) : Answer := (console.withServer next, .str "ok")
  match step.textAt "do" with
  | "page" =>
      let next := server.createPage (step.textAt "pid") (step.textAt "src")
      (console.withServer next, nat next.pages.size)
  | "connect" => console.connect (step.textAt "socket")
  | "close" => console.onSocket step console.disconnect
  | "shut" => console.onSocket step (fun number => sent (server.modifySocket number Socket.close))
  | "forget" =>
      console.onSocket step (fun number =>
        let next := server.letGo number
        (console.withServer next, .bool (next.reachesSession number)))
  | "text" =>
      console.onSocket step (fun number =>
        let next := server.receiveText number (step.textAt "text") (step.flagAt "last" true)
        (console.withServer next, .bool (next.socket number).inbox.isPending))
  | "binary" =>
      console.onSocket step (fun number =>
        let next := server.receiveBinary number (declaredBytes (step.part "bytes"))
          (step.flagAt "last" true)
        (console.withServer next, .bool (next.socket number).inbox.isPending))
  | "process" =>
      console.onSession step (fun number =>
        let next := server.process number (declaredEnvelope step)
        (console.withServer next, currentRecord next.current))
  | "handler" => console.registerHandler step
  | "session_listener" =>
      console.onSession step (fun number => console.sessionListener number step)
  | "lifecycle" => console.lifecycleListener step
  | "session" => console.onSession step (fun number => console.sessionCommand number step)
  | "send" =>
      console.onSession step (fun number =>
        sent (server.send number (.single (declaredInvocation (step.part "invocation")))))
  | "send_all" =>
      console.onSession step (fun number =>
        sent (server.sendAny number
          (Frame.ofBatch? ((step.listAt "invocations").map declaredInvocation))))
  | "send_error" =>
      console.onSession step (fun number => sent (server.sendError number (step.textsAt "chain")))
  | "on_page" => console.onPage step
  | "resource" =>
      let (next, result) := resourceCommand server.resources step
      (console.withServer { server with resources := next }, result)
  | "cache" => console.cacheCommand step
  | "define" => console.define (declaredDefinition (step.part "definition"))
  | "http" => console.http step freshId
  | _ => console.application step

/-- Carries out a command and gives its journal, which starts afresh. -/
def commandWithJournal (console : ServerConsole) (step : Json) (freshId : String) :
    ServerConsole × Json × List Json :=
  let (next, result) := console.command step freshId
  (next.withServer { next.server with journal := [] }, result, journal next.server)

end ServerConsole

end LivePage.Console
