import LivePage.Proofs.Page.Departure
import LivePage.Proofs.Server.Isolation

/-!
Contract: what belongs to the sessions of a server.

Owns:
- orderly servers: each session that has not ended is in the table, and its socket leads to it;
- what becomes of connections and pages by acts, calls to sessions and messages;
- a page that a session has claimed stays with it, and is gone when the session ends.

Does not own: generated content, and the end of connections.
-/

namespace LivePage

/-! ## Connections -/

/-- What becomes of a connection on the way to other pages. Its session goes on, claims a page,
or ends; then its page is gone. -/
inductive Connection.Becomes (before : Connection) (pages : PageStore) (after : Connection) :
    Prop where
  | stays (id : after.session.id = before.session.id)
      (phase : after.session.phase = before.session.phase)
      (attached : after.socket.isAttached = before.socket.isAttached)
  | claims {page : Nat} (id : after.session.id = before.session.id)
      (wasCreated : before.session.phase = .created)
      (isPhase : after.session.phase = .initialized page) (known : page < pages.pages.size)
      (attached : after.socket.isAttached = before.socket.isAttached)
  | ends (id : after.session.id = before.session.id) (isPhase : after.session.phase = .destroyed)
      (isDetached : after.socket.isAttached = false)
      (gone : ∀ page, before.session.phase = .initialized page → pages.Gone page)

namespace Connection.Becomes

theorem refl (connection : Connection) (pages : PageStore) : connection.Becomes pages connection :=
  .stays rfl rfl rfl

theorem id {before after : Connection} {pages : PageStore} (becomes : before.Becomes pages after) :
    after.session.id = before.session.id := by
  cases becomes with
  | stays id => exact id
  | claims id => exact id
  | ends id => exact id

theorem trans {first second third : Connection} {middle last : PageStore}
    (before : first.Becomes middle second) (lasts : middle.Lasts last)
    (after : second.Becomes last third) : first.Becomes last third := by
  have sameId : third.session.id = first.session.id := after.id.trans before.id
  cases before with
  | stays _ phase attached =>
      cases after with
      | stays _ laterPhase laterAttached =>
          exact .stays sameId (laterPhase.trans phase) (laterAttached.trans attached)
      | claims _ wasCreated isPhase known laterAttached =>
          exact .claims sameId (phase.symm.trans wasCreated) isPhase known
            (laterAttached.trans attached)
      | ends _ isPhase isDetached gone =>
          exact .ends sameId isPhase isDetached (fun page had => gone page (phase.trans had))
  | claims _ wasCreated isClaimed known attached =>
      have hadNone (page : Nat) : first.session.phase ≠ .initialized page := by
        rw [wasCreated]
        intro had
        cases had
      cases after with
      | stays _ laterPhase laterAttached =>
          exact .claims sameId wasCreated (laterPhase.trans isClaimed)
            (Nat.lt_of_lt_of_le known lasts.size) (laterAttached.trans attached)
      | claims _ stillCreated =>
          rw [isClaimed] at stillCreated
          cases stillCreated
      | ends _ isPhase isDetached =>
          exact .ends sameId isPhase isDetached (fun page had => absurd had (hadNone page))
  | ends _ isEnded wasDetached gone =>
      have stillGone (page : Nat) (had : first.session.phase = .initialized page) :
          last.Gone page := lasts.gone page (gone page had)
      cases after with
      | stays _ laterPhase laterAttached =>
          exact .ends sameId (laterPhase.trans isEnded) (laterAttached.trans wasDetached) stillGone
      | claims _ stillCreated =>
          rw [isEnded] at stillCreated
          cases stillCreated
      | ends _ isPhase isDetached => exact .ends sameId isPhase isDetached stillGone

end Connection.Becomes

namespace Server

variable {server : Server} {number page : Nat}

/-! ## Servers on the move -/

/-- A server that goes on, without new connections and with the same table of sessions. -/
structure Moves (before after : Server) : Prop where
  size : after.connections.size = before.connections.size
  sessions : after.sessions = before.sessions
  pages : before.pages.Lasts after.pages
  becomes : ∀ number, (before.connection number).Becomes after.pages (after.connection number)

theorem Moves.refl (server : Server) : server.Moves server :=
  ⟨rfl, rfl, .refl _, fun _ => .refl _ _⟩

theorem Moves.trans {first second third : Server} (before : first.Moves second)
    (after : second.Moves third) : first.Moves third :=
  ⟨after.size.trans before.size, after.sessions.trans before.sessions,
    before.pages.trans after.pages,
    fun number => (before.becomes number).trans after.pages (after.becomes number)⟩

/-- Each session that has not ended is one that the server knows, and that its socket leads to.
No two sessions share an id. -/
structure Orderly (server : Server) : Prop where
  filed : server.pages.Filed
  owned : ∀ number page, (server.session number).phase = .initialized page →
    page < server.pages.pages.size
  attached : ∀ number < server.connections.size,
    (server.socket number).isAttached = true ↔ (server.session number).phase ≠ .destroyed
  listed : ∀ number < server.connections.size, (server.session number).phase ≠ .destroyed →
    server.sessions.get? (server.session number).id = some number
  entry : ∀ id number, server.sessions.get? id = some number →
    number < server.connections.size ∧ (server.session number).id = id
  distinct : ∀ first < server.connections.size, ∀ second < server.connections.size,
    (server.session first).id = (server.session second).id → first = second

/-- A page that a session has claimed: it is the page of the session, or both are gone. -/
def Claimed (server : Server) (number page : Nat) : Prop :=
  (server.session number).phase = .initialized page ∨
    (server.session number).phase = .destroyed ∧ server.pages.Gone page

variable {after : Server}

theorem Moves.id (moves : server.Moves after) (number : Nat) :
    (after.session number).id = (server.session number).id :=
  (moves.becomes number).id

theorem Moves.notEnded (moves : server.Moves after)
    (notEnded : (after.session number).phase ≠ .destroyed) :
    (server.session number).phase ≠ .destroyed := by
  intro isEnded
  cases moves.becomes number with
  | stays _ phase => exact notEnded (phase.trans isEnded)
  | claims _ wasCreated => cases isEnded.symm.trans wasCreated
  | ends _ isPhase => exact notEnded isPhase

theorem Moves.orderly (moves : server.Moves after) (orderly : server.Orderly) : after.Orderly where
  filed := moves.pages.filed orderly.filed
  owned number page isPage := by
    cases moves.becomes number with
    | stays _ phase =>
        exact Nat.lt_of_lt_of_le (orderly.owned number page (phase.symm.trans isPage))
          moves.pages.size
    | claims _ _ isPhase known =>
        cases isPhase.symm.trans isPage
        exact known
    | ends _ isPhase => cases isPhase.symm.trans isPage
  attached number known := by
    have before := orderly.attached number (moves.size ▸ known)
    unfold socket session at before ⊢
    cases moves.becomes number with
    | stays _ phase attached =>
        rw [phase, attached]
        exact before
    | claims _ wasCreated isPhase _ attached =>
        rw [attached, isPhase, before, wasCreated]
        simp
    | ends _ isPhase isDetached =>
        rw [isDetached, isPhase]
        simp
  listed number known notEnded := by
    rw [moves.sessions, moves.id]
    exact orderly.listed number (moves.size ▸ known) (moves.notEnded notEnded)
  entry id number isEntry := by
    rw [moves.sessions] at isEntry
    rw [moves.size, moves.id]
    exact orderly.entry id number isEntry
  distinct first firstKnown second secondKnown sameId := by
    rw [moves.id, moves.id] at sameId
    exact orderly.distinct first (moves.size ▸ firstKnown) second (moves.size ▸ secondKnown) sameId

/-- What a session has claimed goes with it. -/
theorem Moves.claimed (moves : server.Moves after) (claimed : server.Claimed number page) :
    after.Claimed number page := by
  unfold Claimed session at claimed ⊢
  cases moves.becomes number with
  | stays _ phase =>
      rw [phase]
      exact claimed.imp_right (fun ended => ⟨ended.1, moves.pages.gone page ended.2⟩)
  | claims _ wasCreated =>
      rw [wasCreated] at claimed
      obtain isPage | ⟨isEnded, -⟩ := claimed
      · cases isPage
      · cases isEnded
  | ends _ isPhase _ gone =>
      refine .inr ⟨isPhase, ?_⟩
      obtain isPage | ⟨-, wasGone⟩ := claimed
      · exact gone page isPage
      · exact moves.pages.gone page wasGone

/-! ## Single changes -/

theorem moves_of_pages (connections : after.connections = server.connections)
    (sessions : after.sessions = server.sessions) (pages : server.pages.Lasts after.pages) :
    server.Moves after := by
  refine ⟨congrArg Array.size connections, sessions, pages, fun number => ?_⟩
  unfold connection
  rw [connections]
  exact .refl _ _

theorem moves_exchange {connection : Connection} {pages : PageStore}
    (lasts : server.pages.Lasts pages)
    (becomes : number < server.connections.size →
      (server.connection number).Becomes pages connection) :
    server.Moves (server.exchange number connection pages) := by
  refine ⟨server.size_exchange number connection pages, rfl, lasts, fun other => ?_⟩
  rw [connection_exchange]
  split
  · next isKnown =>
      rw [isKnown.1]
      exact becomes isKnown.2
  · exact .refl _ _

theorem moves_modifyConnection {change : Connection → Connection}
    (becomes : (server.connection number).Becomes server.pages
      (change (server.connection number))) :
    server.Moves (server.modifyConnection number change) := by
  rw [modifyConnection_eq_exchange]
  exact moves_exchange (.refl _) (fun _ => becomes)

theorem moves_modifySession {change : Session → Session}
    (id : (change (server.session number)).id = (server.session number).id)
    (phase : (change (server.session number)).phase = (server.session number).phase) :
    server.Moves (server.modifySession number change) :=
  moves_modifyConnection (.stays id phase rfl)

theorem moves_modifySocket {change : Socket → Socket}
    (attached : (change (server.socket number)).isAttached =
      (server.socket number).isAttached) :
    server.Moves (server.modifySocket number change) :=
  moves_modifyConnection (.stays rfl rfl attached)

theorem moves_sendError (server : Server) (number : Nat) (chain : List String) :
    server.Moves (server.sendError number chain) := by
  unfold sendError
  split
  · exact moves_of_pages rfl rfl (.refl _)
  · exact .refl _

theorem moves_claimPage (orderly : server.Orderly)
    (isCreated : (server.session number).phase = .created) {pid : String}
    (isRegistered : server.pages.get? pid = some page) :
    server.Moves (server.claimPage number page) :=
  moves_exchange (PageStore.lasts_bind _ _ _) (fun _ =>
    .claims rfl isCreated rfl
      ((PageStore.size_bind _ _ _).symm ▸ (orderly.filed pid page isRegistered).1) rfl)

/-! ## The end of a session -/

theorem moves_destroySession (orderly : server.Orderly) (number : Nat) :
    server.Moves (server.destroySession number) := by
  by_cases isEnded : (server.session number).phase = .destroyed
  · rw [destroySession_of_destroyed isEnded]
    exact .refl server
  · obtain ⟨session, pages, told, id, phase, left, ended⟩ := destroySession_eq isEnded
    have moves : server.Moves (server.exchange number
        ⟨(server.socket number).detach, session, (server.connection number).isHeld⟩ pages) := by
      obtain ⟨rfl, isCreated⟩ | ⟨page, rfl, isPage⟩ := left
      · refine moves_exchange (.refl _) (fun _ => .ends id phase rfl (fun other isOther => ?_))
        cases isCreated.symm.trans isOther
      · refine moves_exchange (PageStore.lasts_release _ _) (fun _ =>
          .ends id phase rfl (fun other isOther => ?_))
        cases isPage.symm.trans isOther
        exact orderly.filed.gone_release (orderly.owned number page isPage)
    rw [ended]
    exact moves.trans (moves_of_pages rfl rfl (.refl _))

theorem phase_destroySession (known : number < server.connections.size) :
    ((server.destroySession number).session number).phase = .destroyed := by
  by_cases isEnded : (server.session number).phase = .destroyed
  · rw [destroySession_of_destroyed isEnded]
    exact isEnded
  · obtain ⟨session, pages, told, -, phase, -, ended⟩ := destroySession_eq isEnded
    rw [ended]
    show ((server.exchange number _ pages).connection number).session.phase = _
    rw [connection_exchange, if_pos ⟨rfl, known⟩]
    exact phase

theorem inbox_destroySession (server : Server) (number other : Nat) :
    ((server.destroySession number).socket other).inbox = (server.socket other).inbox := by
  by_cases isEnded : (server.session number).phase = .destroyed
  · rw [destroySession_of_destroyed isEnded]
  · obtain ⟨session, pages, told, -, -, -, ended⟩ := destroySession_eq isEnded
    rw [ended]
    show ((server.exchange number _ pages).connection other).socket.inbox = _
    rw [connection_exchange]
    split
    · next same =>
        rw [same.1]
        rfl
    · rfl

/-! ## Acts and calls -/

theorem moves_relay (server : Server) (target : Nat) (asked : SynchronizerCall) :
    server.Moves (server.relay target asked) := by
  obtain ⟨entries, released, -⟩ := release_eq_record server target
    ((server.session target).synchronizer.perform asked)
  let synchronizer := ((server.session target).synchronizer.perform asked).1
  have called : server.Moves (server.modifySession target (fun session =>
      session.withSynchronizer synchronizer)) := moves_modifySession rfl rfl
  rw [relay, released]
  exact called.trans (moves_of_pages rfl rfl (.refl _))

theorem moves_act (orderly : server.Orderly) {deeds : List Deed}
    (act : Act number server deeds after) : server.Moves after := by
  cases act with
  | aside same =>
      exact moves_of_pages same.connections same.sessions (same.pages.symm ▸ .refl _)
  | call session asked => exact moves_relay server session asked
  | page owned follows =>
      refine moves_of_pages rfl rfl (PageStore.lasts_put ?_ ?_)
      · exact follows.stays.elim PageState.SameBinding.id PageState.Ended.id
      · intro wasDestroyed
        exact follows.stays.elim (fun same => same.isDestroyed.trans wasDestroyed)
          PageState.Ended.isDestroyed
  | endSession => exact moves_destroySession orderly number

theorem moves_acts (orderly : server.Orderly) {deeds : List Deed}
    (acts : Acts number server deeds after) : server.Moves after := by
  induction acts with
  | refl => exact .refl _
  | step act _ inductionHypothesis =>
      have first := moves_act orderly act
      exact first.trans (inductionHypothesis (first.orderly orderly))

/-- Acts are concerned neither with generated content nor with unfinished messages. -/
theorem unconcerned_acts {deeds : List Deed} (acts : Acts number server deeds after) :
    after.resources = server.resources ∧
      ∀ other, (after.socket other).inbox = (server.socket other).inbox := by
  induction acts with
  | refl => exact ⟨rfl, fun _ => rfl⟩
  | step act _ inductionHypothesis =>
      obtain ⟨resources, inbox⟩ := inductionHypothesis
      rw [resources]
      cases act with
      | aside same =>
          refine ⟨same.resources, fun other => (inbox other).trans ?_⟩
          unfold socket connection
          rw [same.connections]
      | call session asked =>
          refine ⟨?_, fun other => (inbox other).trans ?_⟩
          · obtain ⟨entries, released, -⟩ := release_eq_record _ session _
            rw [relay, released]
            rfl
          · obtain ⟨synchronizer, isConnection⟩ := connection_relay _ session other asked
            unfold socket
            rw [isConnection]
            rfl
      | page => exact ⟨rfl, inbox⟩
      | endSession =>
          exact ⟨rfl, fun other => (inbox other).trans (inbox_destroySession _ _ other)⟩

theorem moves_ask (orderly : server.Orderly) (number : Nat)
    (call : SessionCall SessionListener) : server.Moves (server.ask number call) := by
  cases call with
  | init pid =>
      obtain ⟨unchanged, -⟩ | ⟨page, isCreated, isRegistered, claimed⟩ := server.ask_init number pid
      · rw [unchanged]
        exact .refl server
      · simp only [ask, claimed]
        exact moves_claimPage orderly isCreated isRegistered
  | destroy => exact moves_destroySession orderly number
  | addListener listener =>
      exact moves_modifyConnection (.stays rfl rfl rfl)
  | removeListener listener =>
      exact moves_modifyConnection (.stays rfl rfl rfl)

/-! ## Requests and messages -/

/-- The page that a session claims if it is asked for an id. -/
def claimable? (server : Server) (number : Nat) (pid : String) : Option Nat :=
  if number < server.connections.size ∧ (server.session number).phase = .created then
    server.pages.get? pid
  else none

theorem claimable?_eq_some_iff {pid : String} :
    server.claimable? number pid = some page ↔
      number < server.connections.size ∧ (server.session number).phase = .created ∧
        server.pages.get? pid = some page := by
  simp [claimable?, and_assoc]

theorem claimed_claimPage (known : number < server.connections.size) (page : Nat) :
    (server.claimPage number page).Claimed number page := by
  refine .inl ?_
  rw [session, connection_claimPage known]
  rfl

/-- A request binds its session to a page or not, and then there are acts only. -/
theorem moves_process (orderly : server.Orderly) (number : Nat) (envelope : Envelope) :
    server.Moves (server.process number envelope) ∧
      ∀ page, server.claimable? number envelope.pid = some page →
        (server.process number envelope).Claimed number page := by
  let request := server.requestOf number envelope
  obtain ⟨bound, binds, claims, acts⟩ : ∃ bound, server.Moves bound ∧
      (∀ page, server.claimable? number envelope.pid = some page → bound.Claimed number page) ∧
      ∃ deeds, Acts number bound deeds (server.attempt request).1 := by
    obtain ⟨⟨error, refused, unchanged⟩, -⟩ | ⟨bound, isFirst, answered, acts⟩ :=
      acts_attempt server request
    · rw [unchanged]
      refine ⟨server, .refl server, fun page isClaimable => ?_, [], .refl server⟩
      obtain ⟨-, isCreated, isRegistered⟩ := claimable?_eq_some_iff.mp isClaimable
      cases (initSession_of_registered isCreated isRegistered).symm.trans refused
    · refine ⟨bound, ?_, ?_, _, acts⟩
      · obtain ⟨rfl, -⟩ | ⟨page, isCreated, isRegistered, rfl⟩ := bound_of_initSession answered
        · exact .refl _
        · exact moves_claimPage orderly isCreated isRegistered
      · intro page isClaimable
        obtain ⟨known, isCreated, isRegistered⟩ := claimable?_eq_some_iff.mp isClaimable
        cases (initSession_of_registered isCreated isRegistered).symm.trans answered
        exact claimed_claimPage known page
  have attempted : bound.Moves (server.process number envelope) := by
    obtain ⟨deeds, acts⟩ := acts
    have moves := moves_acts (binds.orderly orderly) acts
    rcases outcome : server.attempt request with ⟨next, chain | _⟩
    · rw [outcome] at moves
      rw [(process_of_error outcome).1]
      have clears : Acts number next _ (next.modifyPageOf number PageState.clearQueue) :=
        next.acts_clearQueueOf
      have cleared := moves_acts (moves.orderly (binds.orderly orderly)) clears
      exact (moves.trans cleared).trans (moves_sendError _ number chain)
    · rw [outcome] at moves
      rw [(process_of_ok outcome).1]
      exact moves
  exact ⟨binds.trans attempted, fun page isClaimable => attempted.claimed (claims page isClaimable)⟩

theorem Orderly.reachesSession_iff (orderly : server.Orderly) :
    server.reachesSession number = true ↔
      number < server.connections.size ∧ (server.session number).phase ≠ .destroyed := by
  constructor
  · intro reaches
    have known := known_of_reachesSession reaches
    refine ⟨known, (orderly.attached number known).mp ?_⟩
    rw [reachesSession, Bool.and_eq_true] at reaches
    exact reaches.1
  · rintro ⟨known, notEnded⟩
    have isAttached := (orderly.attached number known).mpr notEnded
    have isListed := orderly.listed number known notEnded
    simp [reachesSession, isAlive, isAttached, isListed]

theorem moves_dispatch (orderly : server.Orderly) (number : Nat)
    (decoded : Except WireError Envelope) :
    server.Moves (server.dispatch number decoded) ∧
      ∀ page envelope, decoded = .ok envelope →
        server.claimable? number envelope.pid = some page →
          (server.dispatch number decoded).Claimed number page := by
  unfold dispatch
  by_cases reaches : server.reachesSession number = true
  · rw [if_pos reaches]
    cases decoded with
    | ok envelope =>
        obtain ⟨moves, claims⟩ := moves_process orderly number envelope
        refine ⟨moves, fun page other isDecoded isClaimable => ?_⟩
        cases isDecoded
        exact claims page isClaimable
    | error error =>
        refine ⟨moves_sendError server number error.chain, fun page envelope isDecoded => ?_⟩
        cases isDecoded
  · rw [if_neg reaches]
    refine ⟨.refl server, fun page envelope _ isClaimable => ?_⟩
    obtain ⟨known, isCreated, -⟩ := claimable?_eq_some_iff.mp isClaimable
    refine absurd (orderly.reachesSession_iff.mpr ⟨known, ?_⟩) reaches
    rw [isCreated]
    intro isEnded
    cases isEnded

theorem moves_reject (server : Server) (number : Nat) (error : WireError) :
    server.Moves (server.reject number error) := by
  unfold reject
  split
  · exact moves_sendError server number error.chain
  · exact .refl server

theorem claimable?_withSlot {φ : Type} (server : Server) (kind : MessageKind φ) (number : Nat)
    (kept : Option (Assembler φ)) (pid : String) :
    (server.withSlot kind number kept).claimable? number pid = server.claimable? number pid := by
  unfold claimable?
  rw [size_withSlot, withSlot, session_modifySocket]
  rfl

theorem decoded_of_arriving {φ : Type} [Payload φ] {kind : MessageKind φ} {fragment : φ}
    {isLast : Bool} {envelope : Envelope}
    (arrived : server.arriving kind number fragment isLast = some envelope) :
    ∃ message, (Inbox.take (kind.slot (server.socket number).inbox) fragment isLast
        server.limits.message).2 = .ok (some message) ∧
      kind.decode server.limits message = .ok envelope := by
  unfold arriving at arrived
  split at arrived
  · next message outcome =>
      refine ⟨message, outcome, ?_⟩
      cases decoded : kind.decode server.limits message with
      | ok other =>
          rw [decoded] at arrived
          exact congrArg Except.ok (Option.some.inj arrived)
      | error error =>
          rw [decoded] at arrived
          cases arrived
  · cases arrived

/-- A fragment of a message, and the request that it completes. -/
theorem moves_receive {φ : Type} [Payload φ] (orderly : server.Orderly) (kind : MessageKind φ)
    (number : Nat) (fragment : φ) (isLast : Bool) :
    server.Moves (server.receive kind number fragment isLast) ∧
      ∀ page envelope, server.arriving kind number fragment isLast = some envelope →
        server.claimable? number envelope.pid = some page →
          (server.receive kind number fragment isLast).Claimed number page := by
  have put (kept : Option (Assembler φ)) : server.Moves (server.withSlot kind number kept) := by
    unfold withSlot
    exact moves_modifySocket rfl
  have incomplete {outcome : Except WireError (Option φ)}
      (isOutcome : (Inbox.take (kind.slot (server.socket number).inbox) fragment isLast
        server.limits.message).2 = outcome) (noMessage : ∀ message, outcome ≠ .ok (some message))
      (envelope : Envelope) : server.arriving kind number fragment isLast ≠ some envelope := by
    intro arrived
    obtain ⟨message, isWhole, -⟩ := decoded_of_arriving arrived
    exact noMessage message (isOutcome.symm.trans isWhole)
  unfold receive
  dsimp only
  split
  · next outcome =>
      refine ⟨put _, fun page envelope arrived => absurd arrived (incomplete outcome ?_ envelope)⟩
      intro message isWhole
      cases isWhole
  · next message outcome =>
      obtain ⟨moves, claims⟩ := moves_dispatch ((put _).orderly orderly) number
        (kind.decode server.limits message)
      refine ⟨(put _).trans moves, fun page envelope arrived isClaimable => ?_⟩
      obtain ⟨other, isWhole, decoded⟩ := decoded_of_arriving arrived
      cases outcome.symm.trans isWhole
      exact claims page envelope decoded
        ((claimable?_withSlot server kind number _ _).trans isClaimable)
  · next error outcome =>
      refine ⟨(put _).trans (moves_reject _ number error),
        fun page envelope arrived => absurd arrived (incomplete outcome ?_ envelope)⟩
      intro message isWhole
      cases isWhole

end Server

end LivePage
