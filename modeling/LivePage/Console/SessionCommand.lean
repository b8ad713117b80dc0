import LivePage.Console.Declared
import LivePage.Session.Executor
import LivePage.Session.Socket

/-!
Contract: commands to the executor of a session and to a socket.

Owns:
- the commands and what each answers.

Does not own: the rules of executors and sockets.
-/

namespace LivePage.Console

open Json (nat optionalText optionalHex ofFields)

def executorFailure (error : ExecutorError) : Json :=
  let kind :=
    match error with
    | .shutDown => "Shutdown"
    | .noRuntime => "NoRuntime"
  failure kind error.message

/-- Carries out a command on an executor. Only `settle` and `execute` let tasks run. -/
def executorCommand (hasRuntime : Bool) (executor : Executor) (step : Json) : Executor × Json :=
  let start (task : TaskKind) : Executor × Json :=
    match executor.spawn hasRuntime task with
    | .ok next => (next, .str "ok")
    | .error error => (executor, executorFailure error)
  match step.textAt "call" with
  | "spawn_ready" => start .ending
  | "spawn_panic" => start .ending
  | "spawn_pending" => start .endless
  | "execute" =>
      let (next, result) := start .ending
      (if hasRuntime then next.settle else next, result)
  | "settle" => (executor.settle, nat executor.settle.outstanding)
  | "shutdown" =>
      let (next, count) := executor.shutDown
      (next, nat count)
  | _ =>
      (executor, ofFields [("outstanding", nat executor.outstanding),
        ("shutdown", .bool executor.isShutDown)])

def socketFailure (error : SocketError) : Json :=
  failure "Closed" error.message

/-- What came of a fragment, and whether a message is unfinished. -/
def fragmentAnswer {φ : Type} (form : Option φ → Json) (socket : Socket)
    (outcome : Except WireError (Option φ)) : Json :=
  let message :=
    match outcome with
    | .ok message => form message
    | .error error => wireFailure error
  ofFields [("message", message), ("pending", .bool socket.inbox.isPending)]

/-- Carries out a command on a socket and its receiver. -/
def socketCommand (channel : Channel) (step : Json) : Channel × Json :=
  let socket := channel.socket
  let limit := step.natAt "max"
  let isLast := step.flagAt "last" false
  match step.textAt "call" with
  | "send" =>
      match channel.send (step.textAt "text") with
      | .ok next => (next, .str "ok")
      | .error error => (channel, socketFailure error)
  | "receive" =>
      let (next, frame) := channel.receive
      (next, optionalText frame)
  | "drop_receiver" =>
      let next := channel.dropReceiver
      (next, .bool next.isOpen)
  | "close" =>
      let next := channel.withSocket socket.close
      (next, .bool next.isOpen)
  | "text" =>
      let (inbox, outcome) := socket.inbox.pushText (step.textAt "text") isLast limit
      let next := { socket with inbox := inbox }
      (channel.withSocket next, fragmentAnswer optionalText next outcome)
  | "binary" =>
      let (inbox, outcome) :=
        socket.inbox.pushBinary (declaredBytes (step.part "bytes")) isLast limit
      let next := { socket with inbox := inbox }
      (channel.withSocket next, fragmentAnswer optionalHex next outcome)
  | "clear" =>
      let next := socket.clearFragments
      (channel.withSocket next, .bool next.inbox.isPending)
  | "detach" => (channel.withSocket socket.detach, .bool socket.isAttached)
  | _ =>
      (channel, ofFields [
        ("id", .str socket.id), ("open", .bool channel.isOpen),
        ("has_session", .bool socket.isAttached), ("debug", .str socket.inspection)])

end LivePage.Console
