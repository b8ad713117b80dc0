import LivePage.Proofs.Server.Delivery
import LivePage.Proofs.Wire.Reassembly
import LivePage.Server.Dispatch

/-!
Contract: messages that arrive in fragments.

Owns:
- both kinds of message as one, with the slot of the inbox that each uses;
- what a server does about a message by its fragments: refusals, and what is left to decode;
- a message that is too large leaves nothing but refusals if its last fragment is too much,
  and otherwise its end is taken for a message.

Does not own: what a decoded request leads to.
-/

namespace LivePage

open Inbox

/-- How a server treats the messages of one kind. -/
structure MessageKind (φ : Type) where
  slot : Inbox → Option (Assembler φ)
  withSlot : Inbox → Option (Assembler φ) → Inbox
  decode : MessageLimits → φ → Except WireError Envelope
  slot_withSlot : ∀ inbox kept, slot (withSlot inbox kept) = kept
  withSlot_slot : ∀ inbox, withSlot inbox (slot inbox) = inbox
  withSlot_withSlot : ∀ inbox first second,
    withSlot (withSlot inbox first) second = withSlot inbox second

namespace MessageKind

def text : MessageKind String where
  slot := Inbox.text
  withSlot inbox kept := { inbox with text := kept }
  decode _ := Envelope.decodeText
  slot_withSlot _ _ := rfl
  withSlot_slot _ := rfl
  withSlot_withSlot _ _ _ := rfl

def binary : MessageKind (List UInt8) where
  slot := Inbox.binary
  withSlot inbox kept := { inbox with binary := kept }
  decode limits := Envelope.decodeBinary limits.preamble
  slot_withSlot _ _ := rfl
  withSlot_slot _ := rfl
  withSlot_withSlot _ _ _ := rfl

end MessageKind

namespace Server

variable {φ : Type} {server : Server} {kind : MessageKind φ} {number : Nat}

/-! ## Single fragments -/

/-- Puts kept fragments into the slot of a kind. -/
def withSlot (server : Server) (kind : MessageKind φ) (number : Nat)
    (kept : Option (Assembler φ)) : Server :=
  let inbox := kind.withSlot (server.socket number).inbox kept
  server.modifySocket number (fun socket => { socket with inbox := inbox })

/-- Takes a fragment of a kind. -/
def receive [Payload φ] (server : Server) (kind : MessageKind φ) (number : Nat) (fragment : φ)
    (isLast : Bool) : Server :=
  let taken := take (kind.slot (server.socket number).inbox) fragment isLast server.limits.message
  let next := server.withSlot kind number taken.1
  match taken.2 with
  | .ok none => next
  | .ok (some message) => next.dispatch number (kind.decode server.limits message)
  | .error error => next.reject number error

theorem receiveText_eq_receive (server : Server) (number : Nat) (fragment : String)
    (isLast : Bool) :
    server.receiveText number fragment isLast = server.receive .text number fragment isLast := by
  unfold receiveText receive withSlot Inbox.pushText MessageKind.text
  dsimp only
  rcases take (server.socket number).inbox.text fragment isLast server.limits.message with
    ⟨slot, error | message⟩
  · rfl
  · cases message <;> rfl

theorem receiveBinary_eq_receive (server : Server) (number : Nat) (fragment : List UInt8)
    (isLast : Bool) :
    server.receiveBinary number fragment isLast =
      server.receive .binary number fragment isLast := by
  unfold receiveBinary receive withSlot Inbox.pushBinary MessageKind.binary
  dsimp only
  rcases take (server.socket number).inbox.binary fragment isLast server.limits.message with
    ⟨slot, error | message⟩
  · rfl
  · cases message <;> rfl

theorem inbox_withSlot (known : number < server.connections.size) (kept : Option (Assembler φ)) :
    ((server.withSlot kind number kept).socket number).inbox =
      kind.withSlot (server.socket number).inbox kept := by
  rw [socket, withSlot, modifySocket, connection_modifyConnection known]
  rfl

theorem size_withSlot (kept : Option (Assembler φ)) :
    (server.withSlot kind number kept).connections.size = server.connections.size := by
  simp [withSlot, modifySocket, modifyConnection]

theorem withSlot_withSlot (known : number < server.connections.size)
    (first second : Option (Assembler φ)) :
    (server.withSlot kind number first).withSlot kind number second =
      server.withSlot kind number second := by
  rw [withSlot, inbox_withSlot known, kind.withSlot_withSlot]
  exact modifyConnection_modifyConnection server number _ _

theorem withSlot_of_slot {kept : Option (Assembler φ)}
    (isKept : kind.slot (server.socket number).inbox = kept) :
    server.withSlot kind number kept = server := by
  subst isKept
  rw [withSlot, kind.withSlot_slot]
  exact modifyConnection_of_eq rfl

theorem isAlive_withSlot (known : number < server.connections.size)
    (kept : Option (Assembler φ)) :
    (server.withSlot kind number kept).isAlive number = server.isAlive number := by
  unfold isAlive session
  rw [withSlot, modifySocket, connection_modifyConnection known]
  rfl

/-! ## Refusals -/

/-- What a refused message leaves in the journal: an alert to the client, if there is a way to
send one. -/
def refusal (server : Server) (number : Nat) : List Entry :=
  if server.reachesSession number && (server.socket number).isOpen then
    [.frame number (.single (.alert
      (alertText (WireError.messageTooLarge server.limits.message).chain) alertTitle alertFlavor))]
  else []

/-- Refuses messages one after another for their size. -/
def refuseTimes (server : Server) (number count : Nat) : Server :=
  server.record (List.replicate count (server.refusal number)).flatten

theorem record_nil (server : Server) : server.record [] = server := by
  simp [record]

theorem record_record (server : Server) (earlier later : List Entry) :
    (server.record earlier).record later = server.record (earlier ++ later) := by
  simp [record]

theorem reject_eq_record (server : Server) (number : Nat) :
    server.reject number (.messageTooLarge server.limits.message) =
      server.record (server.refusal number) := by
  unfold reject sendError refusal
  by_cases reaches : server.reachesSession number
  · by_cases isOpen : (server.socket number).isOpen
    · simp [reaches, isOpen]
    · simp [reaches, isOpen, record_nil]
  · simp [reaches, record_nil]

theorem refusal_withSlot (known : number < server.connections.size)
    (kept : Option (Assembler φ)) :
    (server.withSlot kind number kept).refusal number = server.refusal number := by
  unfold refusal reachesSession
  rw [isAlive_withSlot known]
  unfold socket
  rw [withSlot, modifySocket, connection_modifyConnection known]
  rfl

theorem withSlot_refuseTimes (known : number < server.connections.size)
    (kept : Option (Assembler φ)) (count : Nat) :
    (server.refuseTimes number count).withSlot kind number kept =
      (server.withSlot kind number kept).refuseTimes number count := by
  unfold refuseTimes
  rw [refusal_withSlot known]
  rfl

theorem refuseTimes_add_one (server : Server) (number count : Nat) :
    (server.refuseTimes number count).record (server.refusal number) =
      server.refuseTimes number (count + 1) := by
  rw [refuseTimes, refuseTimes, record_record, List.replicate_succ', List.flatten_append,
    List.flatten_singleton]

theorem refuseTimes_succ (server : Server) (number count : Nat) :
    (server.record (server.refusal number)).refuseTimes number count =
      server.refuseTimes number (count + 1) := by
  rw [refuseTimes, refuseTimes, List.replicate_succ, List.flatten_cons, ← record_record]
  rfl

/-! ## Messages -/

variable [Payload φ]

/-- The slot of a kind holds fragments. -/
def Keeps (server : Server) (kind : MessageKind φ) (number : Nat) (kept : List φ) : Prop :=
  kind.slot (server.socket number).inbox = slotOf server.limits.message kept

theorem keeps_withSlot (known : number < server.connections.size) (kept : List φ) :
    (server.withSlot kind number (slotOf server.limits.message kept)).Keeps kind number kept := by
  unfold Keeps
  rw [inbox_withSlot known, kind.slot_withSlot]
  rfl

theorem receive_of_exceeds {kept : List φ} {fragment : φ} (keeps : server.Keeps kind number kept)
    (known : number < server.connections.size)
    (exceeds : Exceeds server.limits.message kept fragment) (isLast : Bool) :
    server.receive kind number fragment isLast =
      (server.withSlot kind number none).record (server.refusal number) := by
  unfold receive
  rw [keeps, take_of_exceeds exceeds]
  rw [← refusal_withSlot known none]
  exact reject_eq_record (server.withSlot kind number none) number

theorem receive_unfinished {kept : List φ} {fragment : φ} (keeps : server.Keeps kind number kept)
    (fits : ¬Exceeds server.limits.message kept fragment) :
    server.receive kind number fragment false =
      server.withSlot kind number (slotOf server.limits.message (kept ++ [fragment])) := by
  unfold receive
  rw [keeps, take_unfinished fits]

theorem receive_last [LawfulPayload φ] {kept : List φ} {fragment : φ}
    (keeps : server.Keeps kind number kept)
    (fits : ¬Exceeds server.limits.message kept fragment) :
    server.receive kind number fragment true =
      (server.withSlot kind number none).dispatch number
        (kind.decode server.limits (Payload.join (kept ++ [fragment]))) := by
  unfold receive
  rw [keeps, take_last fits]

/-- Takes fragments of which none is the last one. -/
def receiveEarlier (server : Server) (kind : MessageKind φ) (number : Nat) (fragments : List φ) :
    Server :=
  fragments.foldl (fun server fragment => server.receive kind number fragment false) server

theorem receiveEarlier_eq {kept : List φ} (keeps : server.Keeps kind number kept)
    (known : number < server.connections.size) (fragments : List φ) :
    server.receiveEarlier kind number fragments =
      (server.withSlot kind number (slotOf server.limits.message
        (keptAfter server.limits.message kept fragments))).refuseTimes number
          (refusals server.limits.message kept fragments) := by
  induction fragments generalizing server kept with
  | nil =>
      rw [keptAfter, withSlot_of_slot keeps]
      exact (record_nil server).symm
  | cons fragment rest inductionHypothesis =>
      have others {next : Server} {nextKept : List φ} (nextKeeps : next.Keeps kind number nextKept)
          (sameSize : next.connections.size = server.connections.size) :=
        inductionHypothesis nextKeeps (sameSize ▸ known)
      unfold keptAfter refusals
      by_cases exceeds : Exceeds server.limits.message kept fragment
      · rw [if_pos exceeds, if_pos exceeds]
        have nextKeeps : ((server.withSlot kind number none).record
            (server.refusal number)).Keeps kind number ([] : List φ) :=
          keeps_withSlot known []
        show (server.receive kind number fragment false).receiveEarlier kind number rest = _
        let slot := slotOf server.limits.message (keptAfter server.limits.message [] rest)
        have sameSlot : (server.withSlot kind number none).withSlot kind number slot =
            server.withSlot kind number slot :=
          withSlot_withSlot known none slot
        rw [receive_of_exceeds keeps known exceeds, others nextKeeps (size_withSlot none),
          ← refuseTimes_succ, refusal_withSlot known, ← sameSlot]
        rfl
      · rw [if_neg exceeds, if_neg exceeds]
        show (server.receive kind number fragment false).receiveEarlier kind number rest = _
        rw [receive_unfinished keeps exceeds, others (keeps_withSlot known _) (size_withSlot _),
          withSlot_withSlot known]
        rfl

/-- Takes all fragments of a message. -/
def receiveAll (server : Server) (kind : MessageKind φ) (number : Nat) (earlier : List φ)
    (last : φ) : Server :=
  (server.receiveEarlier kind number earlier).receive kind number last true

/-- The last fragment decides whether the message is refused as a whole. If it is not, what was
kept since the last refusal is decoded. -/
theorem receiveAll_eq [LawfulPayload φ] (kind : MessageKind φ)
    (isFree : kind.slot (server.socket number).inbox = none)
    (known : number < server.connections.size) (earlier : List φ) (last : φ) :
    let kept := keptAfter server.limits.message [] earlier
    let count := refusals server.limits.message [] earlier
    server.receiveAll kind number earlier last =
      if Exceeds server.limits.message kept last then server.refuseTimes number (count + 1)
      else (server.refuseTimes number count).dispatch number
        (kind.decode server.limits (Payload.join (kept ++ [last]))) := by
  intro kept count
  have keeps : server.Keeps kind number ([] : List φ) := isFree
  let waiting := server.withSlot kind number (slotOf server.limits.message kept)
  have waitingKnown : number < (waiting.refuseTimes number count).connections.size :=
    (size_withSlot _).symm ▸ known
  have stillKeeps : (waiting.refuseTimes number count).Keeps kind number kept :=
    keeps_withSlot known kept
  have emptied : (waiting.refuseTimes number count).withSlot kind number none =
      server.refuseTimes number count := by
    rw [withSlot_refuseTimes ((size_withSlot _).symm ▸ known), withSlot_withSlot known,
      withSlot_of_slot isFree]
  rw [receiveAll, receiveEarlier_eq keeps known]
  split
  · next exceeds =>
      rw [receive_of_exceeds stillKeeps waitingKnown exceeds, emptied, ← refuseTimes_add_one]
      rw [← refusal_withSlot known (slotOf server.limits.message kept)]
      rfl
  · next fits =>
      rw [receive_last stillKeeps fits, emptied]
      rfl

end Server

/-! ## Both kinds of message -/

/-- A message by its fragments, of which the last one ends it. -/
inductive Message where
  | text (earlier : List String) (last : String)
  | binary (earlier : List (List UInt8)) (last : List UInt8)

namespace Message

def byteCount : Message → Nat
  | .text earlier last => Payload.byteCount (Payload.join (earlier ++ [last]))
  | .binary earlier last => Payload.byteCount (Payload.join (earlier ++ [last]))

/-- The request in the joined fragments. -/
def decode (limits : MessageLimits) : Message → Except WireError Envelope
  | .text earlier last => Envelope.decodeText (Payload.join (earlier ++ [last]))
  | .binary earlier last =>
      Envelope.decodeBinary limits.preamble (Payload.join (earlier ++ [last]))

/-- How many fragments before the last one are too much. -/
def refusals (limit : Nat) : Message → Nat
  | .text earlier _ => Inbox.refusals limit [] earlier
  | .binary earlier _ => Inbox.refusals limit [] earlier

/-- The last fragment is too much beside those kept since the last refusal. -/
def EndsTooLarge (limit : Nat) : Message → Prop
  | .text earlier last => Exceeds limit (keptAfter limit [] earlier) last
  | .binary earlier last => Exceeds limit (keptAfter limit [] earlier) last

/-- What is left of a message after the last refusal. -/
def remainder (limit : Nat) : Message → Message
  | .text earlier last => .text (keptAfter limit [] earlier) last
  | .binary earlier last => .binary (keptAfter limit [] earlier) last

/-- A message that consists of the last fragments of another one. -/
def IsEndOf : Message → Message → Prop
  | .text earlier last, .text allEarlier allLast => earlier <:+ allEarlier ∧ last = allLast
  | .binary earlier last, .binary allEarlier allLast => earlier <:+ allEarlier ∧ last = allLast
  | _, _ => False

/-- No fragments of the message's kind are waiting for more. -/
def IsNext (inbox : Inbox) : Message → Prop
  | .text _ _ => inbox.text = none
  | .binary _ _ => inbox.binary = none

variable {φ : Type} [Payload φ] [LawfulPayload φ]

/-- A message that is too large is refused sooner or later. -/
theorem exceeds_of_refusals_eq_zero {limit : Nat} {earlier : List φ} {last : φ}
    (tooLarge : limit < Payload.byteCount (Payload.join (earlier ++ [last])))
    (none : Inbox.refusals limit [] earlier = 0) :
    Exceeds limit (keptAfter limit [] earlier) last := by
  rw [keptAfter_of_refusals_eq_zero none, List.nil_append]
  rwa [Payload.byteCount_join, Payload.total_append_singleton] at tooLarge

theorem refusals_pos {limit : Nat} {message : Message} (tooLarge : limit < message.byteCount)
    (fits : ¬message.EndsTooLarge limit) : 0 < message.refusals limit := by
  apply Nat.pos_of_ne_zero
  intro none
  cases message with
  | text earlier last => exact fits (exceeds_of_refusals_eq_zero tooLarge none)
  | binary earlier last => exact fits (exceeds_of_refusals_eq_zero tooLarge none)

theorem byteCount_join_le {limit : Nat} {kept : List φ} {last : φ}
    (fits : ¬Exceeds limit kept last) :
    Payload.byteCount (Payload.join (kept ++ [last])) ≤ limit := by
  rw [Payload.byteCount_join, Payload.total_append_singleton]
  exact Nat.le_of_not_lt fits

theorem byteCount_remainder_le {limit : Nat} {message : Message}
    (fits : ¬message.EndsTooLarge limit) : (message.remainder limit).byteCount ≤ limit := by
  cases message with
  | text earlier last => exact byteCount_join_le fits
  | binary earlier last => exact byteCount_join_le fits

theorem remainder_isEndOf (limit : Nat) (message : Message) :
    (message.remainder limit).IsEndOf message := by
  cases message with
  | text earlier last => exact ⟨keptAfter_isSuffix limit [] earlier, rfl⟩
  | binary earlier last => exact ⟨keptAfter_isSuffix limit [] earlier, rfl⟩

end Message

namespace Server

variable {server : Server} {number : Nat}

/-- Takes the fragments of a message in their order. -/
def receiveMessage (server : Server) (number : Nat) : Message → Server
  | .text earlier last =>
      (earlier.foldl (fun server fragment => server.receiveText number fragment false)
        server).receiveText number last true
  | .binary earlier last =>
      (earlier.foldl (fun server fragment => server.receiveBinary number fragment false)
        server).receiveBinary number last true

/-- The fragments of a text message, taken one by one. -/
theorem receiveMessage_text (server : Server) (number : Nat) (earlier : List String)
    (last : String) :
    server.receiveMessage number (.text earlier last) =
      server.receiveAll .text number earlier last := by
  simp only [receiveMessage, receiveAll, receiveEarlier, receiveText_eq_receive]

theorem receiveMessage_binary (server : Server) (number : Nat) (earlier : List (List UInt8))
    (last : List UInt8) :
    server.receiveMessage number (.binary earlier last) =
      server.receiveAll .binary number earlier last := by
  simp only [receiveMessage, receiveAll, receiveEarlier, receiveBinary_eq_receive]

/-- A message whose last fragment is too much leaves nothing but its refusals. -/
theorem receiveMessage_of_endsTooLarge (known : number < server.connections.size)
    {message : Message} (isNext : message.IsNext (server.socket number).inbox)
    (ends : message.EndsTooLarge server.limits.message) :
    server.receiveMessage number message =
      server.refuseTimes number (message.refusals server.limits.message + 1) := by
  cases message with
  | text earlier last =>
      rw [receiveMessage_text, receiveAll_eq .text isNext known]
      exact if_pos ends
  | binary earlier last =>
      rw [receiveMessage_binary, receiveAll_eq .binary isNext known]
      exact if_pos ends

/-- Of another message, the server acts on what is left after the last refusal. -/
theorem receiveMessage_of_fits (known : number < server.connections.size)
    {message : Message} (isNext : message.IsNext (server.socket number).inbox)
    (fits : ¬message.EndsTooLarge server.limits.message) :
    server.receiveMessage number message =
      (server.refuseTimes number (message.refusals server.limits.message)).dispatch number
        ((message.remainder server.limits.message).decode server.limits) := by
  cases message with
  | text earlier last =>
      rw [receiveMessage_text, receiveAll_eq .text isNext known]
      exact if_neg fits
  | binary earlier last =>
      rw [receiveMessage_binary, receiveAll_eq .binary isNext known]
      exact if_neg fits

/-- A message beyond the limit is refused at least once. If its last fragment is too much
beside those kept since the last refusal, nothing is left of it: the server is as before, with
alerts in the journal, so that the next message finds an empty slot. Otherwise its end, which is
within the limit, is taken for a message. -/
theorem oversized_message_leaves_refusals (known : number < server.connections.size)
    {message : Message} (isNext : message.IsNext (server.socket number).inbox)
    (tooLarge : server.limits.message < message.byteCount) :
    let count := message.refusals server.limits.message
    let rest := message.remainder server.limits.message
    (message.EndsTooLarge server.limits.message →
      server.receiveMessage number message = server.refuseTimes number (count + 1) ∧
        ((server.receiveMessage number message).socket number).inbox =
          (server.socket number).inbox) ∧
      (¬message.EndsTooLarge server.limits.message →
        0 < count ∧ rest.IsEndOf message ∧ rest.byteCount ≤ server.limits.message ∧
          server.receiveMessage number message =
            (server.refuseTimes number count).dispatch number (rest.decode server.limits)) := by
  intro count rest
  refine ⟨?_, ?_⟩
  · intro ends
    have received := receiveMessage_of_endsTooLarge known isNext ends
    refine ⟨received, ?_⟩
    rw [received]
    rfl
  · intro fits
    exact ⟨Message.refusals_pos tooLarge fits, Message.remainder_isEndOf _ message,
      Message.byteCount_remainder_le fits,
      receiveMessage_of_fits known isNext fits⟩

/-- Three fragments that are too much together, with the last one. -/
theorem long_greeting_leaves_one_refusal :
    let server := ((new .empty ⟨[]⟩ ⟨8, 8⟩ 300 []).connect "a").1
    let message : Message := .text ["good", "day,"] "world"
    message.IsNext (server.socket 0).inbox ∧ 8 < message.byteCount ∧
      server.receiveMessage 0 message = server.refuseTimes 0 1 ∧
      ((server.receiveMessage 0 message).socket 0).inbox = (server.socket 0).inbox := by
  intro server message
  have isNext : message.IsNext (server.socket 0).inbox := rfl
  have tooLarge : 8 < message.byteCount := by decide +kernel
  have known : 0 < server.connections.size := by decide +kernel
  have ends : message.EndsTooLarge 8 := by
    show Exceeds 8 (keptAfter 8 [] ["good", "day,"]) "world"
    decide +kernel
  exact ⟨isNext, tooLarge, (oversized_message_leaves_refusals known isNext tooLarge).1 ends⟩

/-- The log entries of clients, each with its session and page. -/
def clientLogs (entries : List Entry) : List (String × String × String) :=
  entries.filterMap (fun
    | .clientLog _ session page message => some (session, page, message)
    | _ => none)

/-- The end of a message that is too large can be a request, which is served. -/
theorem end_of_oversized_message_is_served :
    let server := (((new .empty ⟨[]⟩ ⟨64, 64⟩ 300 []).createPage "p" "index").connect "a").1
    let padding := "0123456789012345678901234567890123456789012345678901234567890123456789"
    let message : Message := .text [padding]
      "\x7b\"pid\":\"p\",\"type\":\"log\",\"data\":\x7b\"message\":\"end\"\x7d\x7d"
    message.IsNext (server.socket 0).inbox ∧ server.limits.message < message.byteCount ∧
      clientLogs (server.receiveMessage 0 message).journal = [("a", "p", "end")] := by
  refine ⟨rfl, ?_, ?_⟩
  · decide +kernel
  · decide +kernel

end Server

end LivePage
