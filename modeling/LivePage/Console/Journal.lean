import LivePage.Console.Declared
import LivePage.Server.Basic

/-!
Contract: the journal of a server as the console shows it.

Owns:
- the JSON form of each kind of entry.

Does not own: what is entered when.
-/

namespace LivePage.Console

open Json (optionalText optionalHex)

/-- The request that is being processed. -/
def currentRecord (current : Option Request) : Json :=
  .arr [.str "context", .bool current.isSome, optionalText (current.map Request.sessionId),
    current.elim .null (fun request => .arr [.str request.requestType, .bool true])]

def lifecycleWord : LifecycleEvent → String
  | .created => "create"
  | .destroyed => "destroy"

/-- An entry; `socketId` names the socket of a connection. -/
def entry (socketId : Nat → String) : Entry → Json
  | .frame connection frame =>
      .arr [.str "frame", .str (socketId connection), .str frame.text]
  | .request listener request =>
      .arr [.str "request", .str listener.name, .str request.pid, .str request.requestType,
        .obj request.envelope.data.toList, optionalHex request.envelope.blob]
  | .invocation listener invocation =>
      .arr [.str "invocation", .str listener.name, .str invocation.encode]
  | .sessionEnded listener session =>
      .arr [.str "session_destroyed", .str listener.name, .str session]
  | .lifecycle event listener session page =>
      .arr [.str (lifecycleWord event), .str listener, .str session, optionalText page]
  | .clientLog level session page message =>
      .arr [.str "client_log", .str level.name, .str session, .str page, .str message]
  | .observed invocation => .arr [.str "invoke", .str invocation.encode]
  | .note noted => noted

/-- The journal of a server. -/
def journal (server : Server) : List Json :=
  server.journal.map (entry (fun number => (server.socket number).id))

end LivePage.Console
