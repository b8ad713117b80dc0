import LivePage.Wire.Fragments

/-!
Contract: the connections of clients.

Owns:
- the socket of a connection, with the fragments of unfinished messages;
- the channel that carries frames from a socket to its receiver.

Does not own: the session of a socket.
-/

namespace LivePage

/-- Why a frame is not sent. -/
inductive SocketError where
  | closed (socket : String)
deriving DecidableEq, Repr

def SocketError.message : SocketError → String
  | .closed socket => "socket " ++ socket ++ " is closed"

/-- The unfinished messages of a socket: at most one of text and one of bytes. -/
structure Inbox where
  text : Option (Assembler String)
  binary : Option (Assembler (List UInt8))
deriving Inhabited

namespace Inbox

def empty : Inbox := ⟨none, none⟩

/-- Takes the next fragment of a kind. The limit is that of the message's first
fragment. Nothing is kept of a message that is whole or too large. -/
def take {φ : Type} [Payload φ] (slot : Option (Assembler φ)) (fragment : φ) (isLast : Bool)
    (limit : Nat) : Option (Assembler φ) × Except WireError (Option φ) :=
  match (slot.getD (Assembler.new limit)).push fragment isLast with
  | (assembler, .ok none) => (some assembler, .ok none)
  | (_, outcome) => (none, outcome)

def pushText (inbox : Inbox) (fragment : String) (isLast : Bool) (limit : Nat) :
    Inbox × Except WireError (Option String) :=
  let (slot, outcome) := take inbox.text fragment isLast limit
  ({ inbox with text := slot }, outcome)

def pushBinary (inbox : Inbox) (fragment : List UInt8) (isLast : Bool) (limit : Nat) :
    Inbox × Except WireError (Option (List UInt8)) :=
  let (slot, outcome) := take inbox.binary fragment isLast limit
  ({ inbox with binary := slot }, outcome)

/-- Whether a message is unfinished. -/
def isPending (inbox : Inbox) : Bool :=
  inbox.text.isSome || inbox.binary.isSome

end Inbox

/-- One end of a connection. -/
structure Socket where
  id : String
  isOpen : Bool
  /-- Whether the socket refers to a session. -/
  isAttached : Bool
  inbox : Inbox
deriving Inhabited

namespace Socket

def new (id : String) : Socket :=
  ⟨id, true, false, .empty⟩

def close (socket : Socket) : Socket :=
  { socket with isOpen := false }

def attach (socket : Socket) : Socket :=
  { socket with isAttached := true }

def detach (socket : Socket) : Socket :=
  { socket with isAttached := false }

def clearFragments (socket : Socket) : Socket :=
  { socket with inbox := .empty }

def flagText (flag : Bool) : String :=
  if flag then "true" else "false"

/-- What an inspection of the socket's state shows. -/
def inspection (socket : Socket) : String :=
  "SocketAttributes \x7b has_session: " ++ flagText socket.isAttached ++
    ", pending_fragments: " ++ flagText socket.inbox.isPending ++ " \x7d"

end Socket

/-- A socket with its receiver and the frames on their way. -/
structure Channel where
  socket : Socket
  hasReceiver : Bool
  waiting : List String
deriving Inhabited

namespace Channel

def new (id : String) : Channel :=
  ⟨Socket.new id, true, []⟩

def isOpen (channel : Channel) : Bool :=
  channel.socket.isOpen && channel.hasReceiver

def send (channel : Channel) (frame : String) : Except SocketError Channel :=
  if channel.isOpen then .ok { channel with waiting := channel.waiting ++ [frame] }
  else .error (.closed channel.socket.id)

/-- Takes the next frame. Frames sent before the socket was closed still arrive. -/
def receive (channel : Channel) : Channel × Option String :=
  match channel.waiting with
  | [] => (channel, none)
  | frame :: rest => ({ channel with waiting := rest }, some frame)

def dropReceiver (channel : Channel) : Channel :=
  { channel with hasReceiver := false, waiting := [] }

def withSocket (channel : Channel) (socket : Socket) : Channel :=
  { channel with socket := socket }

end Channel

end LivePage
