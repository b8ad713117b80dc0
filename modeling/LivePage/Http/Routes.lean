import LivePage.Http.Message
import LivePage.Http.Query
import LivePage.Server.Lifetime

/-!
Contract: what a server answers to HTTP requests.

Owns:
- the routes: health, a new page, generated content, and the place where
  connections begin;
- the answers to other paths and other methods.

Does not own: a connection once it has begun.
-/

namespace LivePage

/-- Where a path leads. -/
inductive Route where
  | health
  | metrics
  | page
  /-- Generated content, by the escaped rest of the path. -/
  | content (escaped : String)
  | connection
deriving DecidableEq, Repr

namespace Route

/-- Where clients connect. -/
def connectionPath : String := "/ws"

def ofPath? (path : String) : Option Route :=
  if path = "/healthz" then some .health
  else if path = "/metrics" then some .metrics
  else if path = "/page" then some .page
  else if path = connectionPath then some .connection
  else
    match Text.afterWord? "/dynamic/".toList path.toList with
    | none => none
    | some [] => none
    | some rest => some (.content (String.ofList rest))

end Route

namespace Server

def healthAnswer (server : Server) : HttpResponse :=
  .ofJson 200 (Json.ofFields
    [("status", .str "ok"), ("sessions", .int (Int.ofNat server.sessions.size))])

/-- Makes a page for the key `src` of a query, if that page can be loaded. -/
def pageAnswer (server : Server) (query : Query) (freshId : String) : Server × HttpResponse :=
  match query.values "src" with
  | _ :: _ :: _ =>
      (server, .ofText 400 "Failed to deserialize query string: duplicate field `src`")
  | values =>
      let src := Text.trimText (values.headD "")
      if src.isEmpty then (server, .badRequest "query parameter `src` is required")
      else
        match server.cache.get server.files src with
        | (cache, .error error) =>
            ({ server with cache := cache }, .notFound error.message)
        | (cache, .ok _) =>
            ({ server with cache := cache }.createPage freshId src,
              .ofJson 200 (Json.ofFields
                [("pid", .str freshId), ("src", .str src), ("ws", .str Route.connectionPath)]))

/-- Whether the client has the content of a tag already. -/
def alreadyHas (request : HttpRequest) (etag : String) : Bool :=
  match request.header? "if-none-match" with
  | none => false
  | some tags =>
      tags.toList.all (fun char => char = '\t' || (0x20 ≤ char.toNat && char.toNat < 0x7F)) &&
        (Text.splitText ',' tags).any (fun tag => Text.trimText tag == etag)

def contentAnswer (server : Server) (request : HttpRequest) (escaped : String) : HttpResponse :=
  match Text.percentDecode? escaped with
  | none => .ofText 400 "Invalid URL: Invalid UTF-8 in `path`"
  | some path =>
      match server.resources.get? path with
      | none => .notFound ("no dynamic resource at " ++ path)
      | some resource =>
          if alreadyHas request resource.etag then ⟨304, none, some resource.etag, []⟩
          else if HttpRequest.isHeaderValue resource.contentType then
            ⟨200, some resource.contentType, some resource.etag, resource.body⟩
          else .ofText 500 HttpError.invalidHeaderValue.message

/-- Looks at a request to begin a connection; beginning one is up to the
transport. -/
def connectionAnswer (request : HttpRequest) : HttpResponse :=
  let carries (name word : String) : Bool :=
    (request.header? name).any (fun value => Text.lowerAscii value == word)
  let asksForUpgrade := (request.header? "connection").any (fun value =>
    (Text.cutAtWord? "upgrade".toList (Text.lowerAscii value).toList).isSome)
  if request.method ≠ "GET" then .ofText 405 "Request method must be `GET`"
  else if !asksForUpgrade then .ofText 400 "Connection header did not include 'upgrade'"
  else if !carries "upgrade" "websocket" then
    .ofText 400 "`Upgrade` header did not include 'websocket'"
  else if !carries "sec-websocket-version" "13" then
    .ofText 400 "`Sec-WebSocket-Version` header did not include '13'"
  else if (request.header? "sec-websocket-key").isNone then
    .ofText 400 "`Sec-WebSocket-Key` header missing"
  else
    .ofText 426 "WebSocket request couldn't be upgraded since no upgrade state was present"

/-- Answers a request to a known path. -/
def routeAnswer (server : Server) (request : HttpRequest) (freshId : String) :
    Route → Server × HttpResponse
  | .health => (server, server.healthAnswer)
  | .metrics => (server, .bare 404)
  | .page => server.pageAnswer (Query.read (request.target.query.getD "")) freshId
  | .content escaped => (server, server.contentAnswer request escaped)
  | .connection => (server, connectionAnswer request)

/-- Answers a request; a page made for it gets the fresh id. Content is asked
for, or asked about, and nothing else. -/
def respond (server : Server) (request : HttpRequest) (freshId : String) :
    Server × HttpResponse :=
  match Route.ofPath? request.target.path with
  | none => (server, .bare 404)
  | some route =>
      if request.method = "GET" then server.routeAnswer request freshId route
      else if request.method = "HEAD" then
        let (next, response) := server.routeAnswer request freshId route
        (next, response.withoutBody)
      else (server, .bare 405)

end Server

end LivePage
