import LivePage.Proofs.Resource.Calls
import LivePage.Proofs.Server.Belongings
import LivePage.Proofs.Server.Takeover

/-!
Contract: what the end of a connection leaves behind.

Owns:
- runs of connections, pages, messages, calls to sessions, generated content and ends of
  connections, in any order;
- the pages that a session claims on the way, which are gone once its connection has closed;
- a session that lasts until its connection closes leaves nothing behind;
- of a session that was ended directly, the entry in the table and the content stay.

Does not own: what is sent on the way.
-/

namespace LivePage

/-! ## Steps of a run -/

/-- Something that happens on a server: what clients do and what pages there are, something that
is asked of a session directly, generated content, or someone who listens, lets go of a session,
or closes a socket before the server hears of it. -/
inductive UsageStep where
  | base (step : ServerStep)
  | ask (number : Nat) (call : SessionCall SessionListener)
  | publish (page : Option String) (name : String) (resource : Resource)
  | listen (listener : LifecycleListener)
  | letGo (number : Nat)
  | shut (number : Nat)

/-- The id of a new connection. -/
def UsageStep.newId? : UsageStep → Option String
  | .base (.connect id) => some id
  | _ => none

/-- The connection that closes. -/
def UsageStep.closing? : UsageStep → Option Nat
  | .base (.close number) => some number
  | _ => none

/-- The ids of the connections of a run. -/
def connectedIds (steps : List UsageStep) : List String :=
  steps.filterMap UsageStep.newId?

namespace Server

variable {server : Server} {number page : Nat}

def publish (server : Server) (page : Option String) (name : String) (resource : Resource) :
    Server :=
  { server with resources := (server.resources.register page name resource).1 }

def proceed (server : Server) : UsageStep → Server
  | .base step => server.advance step
  | .ask number call => server.ask number call
  | .publish page name resource => server.publish page name resource
  | .listen listener => server.addLifecycleListener listener
  | .letGo number => server.letGo number
  | .shut number => server.modifySocket number Socket.close

def proceedAll (server : Server) (steps : List UsageStep) : Server :=
  steps.foldl proceed server

/-- The page that a session claims by a step: by a request of its client, or asked directly. -/
def gained? (server : Server) (number : Nat) : UsageStep → Option Nat
  | .base (.text other fragment isLast) =>
      if other = number then
        (server.arriving .text number fragment isLast).bind (fun envelope =>
          server.claimable? number envelope.pid)
      else none
  | .base (.binary other fragment isLast) =>
      if other = number then
        (server.arriving .binary number fragment isLast).bind (fun envelope =>
          server.claimable? number envelope.pid)
      else none
  | .ask other (.init pid) => if other = number then server.claimable? number pid else none
  | _ => none

/-- The pages that a session claims in a run. -/
def gained (number : Nat) : Server → List UsageStep → List Nat
  | _, [] => []
  | server, step :: rest =>
      (server.gained? number step).toList ++ gained number (server.proceed step) rest

/-! ## The end of a connection -/

variable {after : Server}

theorem moves_clearFragments (server : Server) (number : Nat) :
    server.Moves (server.modifySocket number Socket.clearFragments) :=
  moves_modifySocket rfl

/-- Without a session that has not ended, the server only forgets the unfinished messages of the
socket. -/
theorem disconnect_of_ended (orderly : server.Orderly)
    (isEnded : ¬(number < server.connections.size ∧ (server.session number).phase ≠ .destroyed)) :
    server.disconnect number = server.modifySocket number Socket.clearFragments := by
  have moves := moves_clearFragments server number
  unfold disconnect
  refine if_neg (fun reaches => isEnded ?_)
  have reached := (moves.orderly orderly).reachesSession_iff.mp reaches
  rw [moves.size, session_modifySocket] at reached
  exact reached

/-- The content of the page of a session goes when the session ends. -/
theorem dropContent_eq (server : Server) (number : Nat) :
    ∃ resources, server.dropContent number .destroyed = { server with resources := resources } ∧
      ∀ page, server.pageOf number = some page →
        resources = (server.resources.dropNamespace (server.pages.page page).id).1 := by
  unfold dropContent pageIdOf
  cases owned : server.pageOf number with
  | none => exact ⟨server.resources, rfl, fun page isPage => by cases isPage⟩
  | some page =>
      refine ⟨_, rfl, fun other isOther => ?_⟩
      cases isOther
      rfl

theorem acts_notifyEnd (server : Server) (number : Nat) :
    ∃ deeds, Acts number (server.dropContent number .destroyed) deeds
      (server.notifyLifecycle number .destroyed).1 := by
  have told : Acts number (server.dropContent number .destroyed) _ _ :=
    acts_tellAll .destroyed server.lifecycle _
  have left : Aside
      (tellAll number .destroyed server.lifecycle (server.dropContent number .destroyed)).1
      (server.notifyLifecycle number .destroyed).1 :=
    ⟨rfl, rfl, rfl, rfl, rfl, rfl, fun _ => rfl⟩
  exact ⟨_, told.trans (Act.aside left).acts⟩

/-- A session that ends with its connection, right before it leaves the table. -/
structure EndsWith (number : Nat) (before after : Server) : Prop where
  moves : before.Moves after
  phase : (after.session number).phase = .destroyed
  inbox : (after.socket number).inbox = .empty
  content : ∀ page, before.pageOf number = some page →
    after.resources = (before.resources.dropNamespace (before.pages.page page).id).1

theorem endsWith_disconnect (orderly : server.Orderly) (known : number < server.connections.size)
    (notEnded : (server.session number).phase ≠ .destroyed) :
    ∃ torn, EndsWith number server torn ∧
      server.disconnect number = torn.unregister (torn.session number).id := by
  let cleared := server.modifySocket number Socket.clearFragments
  let told := (cleared.notifyLifecycle number .destroyed).1
  have clears : server.Moves cleared := moves_clearFragments server number
  -- the content goes first, then the listeners act, and then the session ends
  obtain ⟨resources, dropped, isDropped⟩ := cleared.dropContent_eq number
  obtain ⟨deeds, acts⟩ := acts_notifyEnd cleared number
  rw [dropped] at acts
  have drops : cleared.Moves { cleared with resources := resources } :=
    moves_of_pages rfl rfl (.refl _)
  have before : server.Moves { cleared with resources := resources } := clears.trans drops
  have tells : server.Moves told := before.trans (moves_acts (before.orderly orderly) acts)
  obtain ⟨sameResources, sameInbox⟩ := unconcerned_acts acts
  have ends : told.Moves (told.destroySession number) :=
    moves_destroySession (tells.orderly orderly) number
  refine ⟨told.destroySession number, ⟨tells.trans ends, ?_, ?_, ?_⟩, ?_⟩
  · exact phase_destroySession (tells.size.symm ▸ known)
  · rw [inbox_destroySession, sameInbox]
    show (cleared.connection number).socket.inbox = .empty
    rw [show cleared = server.modifyConnection number _ from rfl,
      connection_modifyConnection known]
    rfl
  · intro page owned
    have ownedCleared : cleared.pageOf number = some page := by
      rw [pageOf, session_modifySocket]
      exact owned
    exact sameResources.trans (isDropped page ownedCleared)
  · have reaches : cleared.reachesSession number = true := by
      refine (clears.orderly orderly).reachesSession_iff.mpr ⟨clears.size.symm ▸ known, ?_⟩
      rw [session_modifySocket]
      exact notEnded
    rw [ends.id]
    exact if_pos reaches

/-- A session that has ended leaves the table. -/
theorem Orderly.unregister (orderly : server.Orderly) (known : number < server.connections.size)
    (isEnded : (server.session number).phase = .destroyed) :
    (server.unregister (server.session number).id).Orderly := by
  refine ⟨orderly.filed, orderly.owned, orderly.attached, ?_, ?_, orderly.distinct⟩
  · intro other otherKnown notEnded
    have different : (server.session other).id ≠ (server.session number).id := by
      intro sameId
      cases orderly.distinct other otherKnown number known sameId
      exact notEnded isEnded
    exact ((Dict.get?_erase _ _ _).trans (if_neg different)).trans
      (orderly.listed other otherKnown notEnded)
  · intro id other isEntry
    refine orderly.entry id other ?_
    have erased := Dict.get?_erase server.sessions (server.session number).id id
    rw [show (server.sessions.erase _).get? id = some other from isEntry] at erased
    split at erased
    · cases erased
    · exact erased.symm

theorem not_listed_unregister (orderly : server.Orderly) (number : Nat) (id : String) :
    (server.unregister (server.session number).id).sessions.get? id ≠ some number := by
  intro isEntry
  have erased := Dict.get?_erase server.sessions (server.session number).id id
  rw [show (server.sessions.erase _).get? id = some number from isEntry] at erased
  split at erased
  · cases erased
  · next otherId => exact otherId (orderly.entry id number erased.symm).2.symm

/-! ## Single steps -/

/-- Whether a session is in the table under its id. -/
def Lists (server : Server) (number : Nat) : Prop :=
  server.sessions.get? (server.session number).id = some number

/-- A server after a step, by the id of a new connection and by the one that closes. Sessions have
kept what they claimed, or lost it with their lives; only one that closes leaves the table. -/
structure Continues (newId? : Option String) (closing? : Option Nat) (before after : Server) :
    Prop where
  orderly : after.Orderly
  claimed : ∀ number page, before.Claimed number page → after.Claimed number page
  known : ∀ number < after.connections.size,
    (number < before.connections.size ∧ (after.session number).id = (before.session number).id) ∨
      newId? = some (after.session number).id ∧ after.Lists number
  listed : ∀ number < before.connections.size, closing? ≠ some number → before.Lists number →
    after.Lists number

theorem Moves.continues (moves : server.Moves after) (orderly : server.Orderly)
    (closing? : Option Nat) : Continues none closing? server after where
  orderly := moves.orderly orderly
  claimed _ _ := moves.claimed
  known number isKnown := .inl ⟨moves.size ▸ isKnown, moves.id number⟩
  listed number _ _ lists := by
    rw [Lists, moves.sessions, moves.id]
    exact lists

theorem continues_disconnect (orderly : server.Orderly) (number : Nat) :
    Continues none (some number) server (server.disconnect number) := by
  by_cases lives : number < server.connections.size ∧ (server.session number).phase ≠ .destroyed
  · obtain ⟨torn, ends, closed⟩ := endsWith_disconnect orderly lives.1 lives.2
    have known : number < torn.connections.size := ends.moves.size.symm ▸ lives.1
    have continues := ends.moves.continues orderly (some number)
    rw [closed]
    refine ⟨continues.orderly.unregister known ends.phase, continues.claimed,
      fun other otherKnown => .inl ⟨ends.moves.size ▸ otherKnown, ends.moves.id other⟩, ?_⟩
    intro other otherKnown different lists
    -- only the entry of the session that ended is erased, since no other one shares its id
    have otherId : (torn.session other).id ≠ (torn.session number).id := fun sameId =>
      different (congrArg some (continues.orderly.distinct other
        (ends.moves.size.symm ▸ otherKnown) number known sameId).symm)
    exact ((Dict.get?_erase _ _ _).trans (if_neg otherId)).trans
      (continues.listed other otherKnown different lists)
  · rw [disconnect_of_ended orderly lives]
    exact (moves_clearFragments server number).continues orderly _

/-! ### New connections -/

theorem size_connect (server : Server) (id : String) :
    (server.connect id).1.connections.size = server.connections.size + 1 := by
  simp [connect]

theorem get?_connect (server : Server) (id other : String) :
    (server.connect id).1.sessions.get? other =
      if other = id then some server.connections.size else server.sessions.get? other :=
  Dict.get?_insert server.sessions id other server.connections.size

theorem phase_connect (server : Server) (id : String) (number : Nat) :
    ((server.connect id).1.session number).phase = (server.session number).phase := by
  unfold session
  rw [connection_connect]
  split
  · next isNumber =>
      rw [connection_of_unknown (Nat.le_of_eq isNumber.symm)]
      rfl
  · rfl

theorem id_connect (id : String) (known : number < server.connections.size) :
    ((server.connect id).1.session number).id = (server.session number).id := by
  rw [session, connection_connect, if_neg (Nat.ne_of_lt known)]
  rfl

theorem newId_connect (server : Server) (id : String) :
    ((server.connect id).1.session server.connections.size).id = id := by
  rw [session, connection_connect, if_pos rfl]
  rfl

/-- After a new connection, each connection is an old one or the new one. -/
theorem known_connect {id : String} (known : number < (server.connect id).1.connections.size) :
    number < server.connections.size ∨ number = server.connections.size := by
  rw [size_connect] at known
  omega

theorem orderly_connect (orderly : server.Orderly) {id : String}
    (isNew : ∀ number < server.connections.size, (server.session number).id ≠ id) :
    (server.connect id).1.Orderly := by
  refine ⟨orderly.filed, ?_, ?_, ?_, ?_, ?_⟩
  · intro number page
    rw [phase_connect]
    exact orderly.owned number page
  · intro number known
    rw [phase_connect, socket, connection_connect]
    obtain isKnown | rfl := known_connect known
    · rw [if_neg (Nat.ne_of_lt isKnown)]
      exact orderly.attached number isKnown
    · rw [if_pos rfl, session, connection_of_unknown (Nat.le_refl _)]
      refine iff_of_true rfl (fun isEnded => ?_)
      cases isEnded
  · intro number known
    rw [phase_connect, get?_connect]
    obtain isKnown | rfl := known_connect known
    · rw [id_connect id isKnown, if_neg (isNew number isKnown)]
      exact orderly.listed number isKnown
    · exact fun _ => if_pos (newId_connect server id)
  · intro other number isEntry
    rw [get?_connect] at isEntry
    rw [size_connect]
    split at isEntry
    · next isId =>
        cases isEntry
        exact ⟨Nat.lt_succ_self _, (newId_connect server id).trans isId.symm⟩
    · obtain ⟨isKnown, isId⟩ := orderly.entry other number isEntry
      exact ⟨Nat.lt_succ_of_lt isKnown, (id_connect id isKnown).trans isId⟩
  · intro first firstKnown second secondKnown sameId
    obtain firstOld | rfl := known_connect firstKnown
    · obtain secondOld | rfl := known_connect secondKnown
      · rw [id_connect id firstOld, id_connect id secondOld] at sameId
        exact orderly.distinct first firstOld second secondOld sameId
      · rw [id_connect id firstOld, newId_connect] at sameId
        exact absurd sameId (isNew first firstOld)
    · obtain secondOld | rfl := known_connect secondKnown
      · rw [newId_connect, id_connect id secondOld] at sameId
        exact absurd sameId.symm (isNew second secondOld)
      · rfl

theorem continues_connect (orderly : server.Orderly) {id : String}
    (isNew : ∀ number < server.connections.size, (server.session number).id ≠ id) :
    Continues (some id) none server (server.connect id).1 where
  orderly := orderly_connect orderly isNew
  claimed number page claimed := by
    unfold Claimed
    rw [phase_connect]
    exact claimed
  known number known := by
    obtain isKnown | rfl := known_connect known
    · exact .inl ⟨isKnown, id_connect id isKnown⟩
    · refine .inr ⟨congrArg some (newId_connect server id).symm, ?_⟩
      rw [Lists, newId_connect, get?_connect, if_pos rfl]
  listed number isKnown _ lists := by
    rw [Lists, id_connect id isKnown, get?_connect, if_neg (isNew number isKnown)]
    exact lists

/-! ### All steps -/

/-- What is done about a page leaves its id, and whether it has ended. -/
theorem moves_modifyPage (server : Server) (page : Nat) {change : Page → Page}
    (sameState : ∀ live, (change live).state = live.state) :
    server.Moves (server.modifyPage page change) := by
  refine moves_of_pages rfl rfl (PageStore.lasts_modify ?_ ?_)
  · unfold Page.id
    rw [sameState]
  · rw [sameState]
    exact id

theorem continues_proceed (orderly : server.Orderly) {step : UsageStep}
    (isNew : ∀ id, step.newId? = some id → ∀ number < server.connections.size,
      (server.session number).id ≠ id) :
    Continues step.newId? step.closing? server (server.proceed step) := by
  cases step with
  | base step =>
      cases step with
      | connect id => exact continues_connect orderly (isNew id rfl)
      | close number => exact continues_disconnect orderly number
      | createPage id src =>
          have moves : server.Moves (server.createPage id src) :=
            moves_of_pages rfl rfl (PageStore.lasts_register _ _)
          exact moves.continues orderly _
      | setHandler page name handler =>
          have moves := moves_modifyPage server page
            (fun _ => rfl : ∀ live : Page, (live.setHandler name handler).state = live.state)
          exact moves.continues orderly _
      | addListener page target eventType listener =>
          have moves := moves_modifyPage server page
            (fun _ => rfl : ∀ live : Page, (live.addListener target eventType listener).state =
              live.state)
          exact moves.continues orderly _
      | text number fragment isLast =>
          have moves := (moves_receive orderly .text number fragment isLast).1
          rw [← receiveText_eq_receive] at moves
          exact moves.continues orderly _
      | binary number fragment isLast =>
          have moves := (moves_receive orderly .binary number fragment isLast).1
          rw [← receiveBinary_eq_receive] at moves
          exact moves.continues orderly _
  | ask number call => exact (moves_ask orderly number call).continues orderly _
  | publish page name resource =>
      have moves : server.Moves (server.publish page name resource) :=
        moves_of_pages rfl rfl (.refl _)
      exact moves.continues orderly _
  | listen listener =>
      have moves : server.Moves (server.addLifecycleListener listener) :=
        moves_of_pages rfl rfl (.refl _)
      exact moves.continues orderly _
  | letGo number =>
      have moves : server.Moves (server.letGo number) :=
        moves_modifyConnection (.stays rfl rfl rfl)
      exact moves.continues orderly _
  | shut number =>
      have moves : server.Moves (server.modifySocket number Socket.close) :=
        moves_modifySocket rfl
      exact moves.continues orderly _

/-- A page that a session gains by a step is claimed by it from then on. -/
theorem claimed_of_gained (orderly : server.Orderly) {step : UsageStep}
    (isGained : server.gained? number step = some page) :
    (server.proceed step).Claimed number page := by
  have byRequest {φ : Type} [Payload φ] {kind : MessageKind φ} {other : Nat} {fragment : φ}
      {isLast : Bool}
      (isGained : (if other = number then
          (server.arriving kind number fragment isLast).bind (fun envelope =>
            server.claimable? number envelope.pid)
        else none) = some page) :
      (server.receive kind other fragment isLast).Claimed number page := by
    split at isGained
    · next same =>
        subst same
        obtain ⟨envelope, arrived, isClaimable⟩ := Option.bind_eq_some_iff.mp isGained
        exact (moves_receive orderly kind other fragment isLast).2 page envelope arrived
          isClaimable
    · cases isGained
  cases step with
  | base step =>
      cases step with
      | text other fragment isLast =>
          show (server.receiveText other fragment isLast).Claimed number page
          rw [receiveText_eq_receive]
          exact byRequest isGained
      | binary other fragment isLast =>
          show (server.receiveBinary other fragment isLast).Claimed number page
          rw [receiveBinary_eq_receive]
          exact byRequest isGained
      | connect => cases isGained
      | createPage => cases isGained
      | setHandler => cases isGained
      | addListener => cases isGained
      | close => cases isGained
  | ask other call =>
      cases call with
      | init pid =>
          change (if other = number then server.claimable? number pid else none) = some page
            at isGained
          split at isGained
          · next same =>
              subst same
              obtain ⟨known, isCreated, isRegistered⟩ := claimable?_eq_some_iff.mp isGained
              have answered := initSession_of_registered isCreated isRegistered
              simp only [proceed, ask, answered]
              exact claimed_claimPage known page
          · cases isGained
      | destroy => cases isGained
      | addListener => cases isGained
      | removeListener => cases isGained
  | publish => cases isGained
  | listen => cases isGained
  | letGo => cases isGained
  | shut => cases isGained

/-! ## Runs -/

/-- What a run comes to for the sessions of a server. -/
structure RunsTo (before : Server) (steps : List UsageStep) (after : Server) : Prop where
  orderly : after.Orderly
  claimed : ∀ number page, before.Claimed number page → after.Claimed number page
  gained : ∀ number, ∀ page ∈ gained number before steps, after.Claimed number page
  listed : ∀ number < after.connections.size, (∀ step ∈ steps, step.closing? ≠ some number) →
    (number < before.connections.size → before.Lists number) → after.Lists number

theorem runsTo_proceedAll (orderly : server.Orderly) {steps : List UsageStep}
    (distinct : (connectedIds steps).Nodup)
    (isNew : ∀ id ∈ connectedIds steps, ∀ number < server.connections.size,
      (server.session number).id ≠ id) : RunsTo server steps (server.proceedAll steps) := by
  induction steps generalizing server with
  | nil =>
      exact ⟨orderly, fun _ _ => id, fun _ _ isGained => absurd isGained List.not_mem_nil,
        fun _ known _ lists => lists known⟩
  | cons step rest inductionHypothesis =>
      have ids : connectedIds (step :: rest) = step.newId?.toList ++ connectedIds rest := by
        unfold connectedIds
        rw [List.filterMap_cons]
        cases step.newId? <;> rfl
      rw [ids] at distinct isNew
      obtain ⟨-, restDistinct, apart⟩ := List.nodup_append.mp distinct
      have first : Continues step.newId? step.closing? server (server.proceed step) := by
        refine continues_proceed orderly (fun id isId => isNew id ?_)
        rw [isId]
        exact List.mem_append_left _ List.mem_cons_self
      -- a later id is neither that of an old session nor the one of this step
      have stillNew : ∀ id ∈ connectedIds rest, ∀ number < (server.proceed step).connections.size,
          ((server.proceed step).session number).id ≠ id := by
        intro id isLater number known sameId
        obtain ⟨wasKnown, wasId⟩ | ⟨isStep, -⟩ := first.known number known
        · exact isNew id (List.mem_append_right _ isLater) number wasKnown
            (wasId.symm.trans sameId)
        · refine apart id ?_ id isLater rfl
          rw [isStep, sameId]
          exact List.mem_cons_self
      have later := inductionHypothesis first.orderly restDistinct stillNew
      refine ⟨later.orderly, fun number page claimed => later.claimed number page
        (first.claimed number page claimed), fun number page isGained => ?_, ?_⟩
      · obtain isFirst | isLater := List.mem_append.mp isGained
        · exact later.claimed number page
            (claimed_of_gained orderly (Option.mem_toList.mp isFirst))
        · exact later.gained number page isLater
      · intro number known staysOpen wasListed
        refine later.listed number known (fun other isLater =>
          staysOpen other (List.mem_cons_of_mem _ isLater)) (fun nextKnown => ?_)
        obtain ⟨wasKnown, -⟩ | ⟨-, lists⟩ := first.known number nextKnown
        · exact first.listed number wasKnown (staysOpen step List.mem_cons_self)
            (wasListed wasKnown)
        · exact lists

theorem orderly_of_fresh (noConnections : server.connections = #[])
    (noPages : server.pages = .empty) (noSessions : server.sessions = .empty) : server.Orderly := by
  have unknown (number : Nat) : ¬number < server.connections.size := by
    rw [noConnections]
    exact Nat.not_lt_zero number
  refine ⟨noPages ▸ PageStore.filed_empty, ?_, ?_, ?_, ?_, ?_⟩
  · intro number page isPhase
    exact absurd (known_of_initialized isPhase) (unknown number)
  · exact fun number known => absurd known (unknown number)
  · exact fun number known => absurd known (unknown number)
  · intro id number isEntry
    rw [noSessions] at isEntry
    cases isEntry
  · exact fun first known => absurd known (unknown first)

/-- Whatever has happened on a server whose connections go by ids of their own: once a connection
has closed, its session is destroyed, no message is unfinished, and each page that the session
ever claimed is destroyed and registered no more. If the session lasted until then, it is in the
table no more, and of the content just what belonged to its page is gone. If it was ended
directly before, nothing but the unfinished messages is cleared: the content stays, and so does
the entry in the table. -/
theorem teardown_of_closed_connection (noConnections : server.connections = #[])
    (noPages : server.pages = .empty) (noSessions : server.sessions = .empty)
    {steps : List UsageStep} (distinct : (connectedIds steps).Nodup)
    (known : number < (server.proceedAll steps).connections.size) :
    let next := server.proceedAll steps
    let closed := next.disconnect number
    (closed.session number).phase = .destroyed ∧ (closed.socket number).inbox = .empty ∧
      (∀ page ∈ gained number server steps, closed.pages.Gone page) ∧
      ((next.session number).phase ≠ .destroyed →
        (∀ id, closed.sessions.get? id ≠ some number) ∧
          ∀ page, next.pageOf number = some page → ∀ path, closed.resources.get? path =
            if (Resource.place path).1 = (next.pages.page page).id then none
            else next.resources.get? path) ∧
      ((next.session number).phase = .destroyed →
        closed = next.modifySocket number Socket.clearFragments ∧
          ((∀ step ∈ steps, step.closing? ≠ some number) → closed.Lists number)) := by
  intro next closed
  have unknown (number : Nat) : ¬number < server.connections.size := by
    rw [noConnections]
    exact Nat.not_lt_zero number
  have run : RunsTo server steps next :=
    runsTo_proceedAll (orderly_of_fresh noConnections noPages noSessions) distinct
      (fun _ _ number known => absurd known (unknown number))
  have after : Continues none (some number) next closed :=
    continues_disconnect run.orderly number
  have whenEnded (isEnded : (next.session number).phase = .destroyed) :
      closed = next.modifySocket number Socket.clearFragments :=
    disconnect_of_ended run.orderly (fun lives => lives.2 isEnded)
  have phase_and_inbox : (closed.session number).phase = .destroyed ∧
      (closed.socket number).inbox = .empty := by
    by_cases isEnded : (next.session number).phase = .destroyed
    · rw [whenEnded isEnded, session_modifySocket, socket, modifySocket,
        connection_modifyConnection known]
      exact ⟨isEnded, rfl⟩
    · obtain ⟨torn, ends, left⟩ := endsWith_disconnect run.orderly known isEnded
      rw [show closed = _ from left]
      exact ⟨ends.phase, ends.inbox⟩
  refine ⟨phase_and_inbox.1, phase_and_inbox.2, ?_, ?_, fun isEnded => ⟨whenEnded isEnded, ?_⟩⟩
  · intro page isGained
    obtain isPage | ⟨-, isGone⟩ := after.claimed number page (run.gained number page isGained)
    · cases phase_and_inbox.1.symm.trans isPage
    · exact isGone
  · intro notEnded
    obtain ⟨torn, ends, left⟩ := endsWith_disconnect run.orderly known notEnded
    rw [show closed = _ from left]
    refine ⟨not_listed_unregister (ends.moves.orderly run.orderly) number,
      fun page owned path => ?_⟩
    show torn.resources.get? path = _
    rw [ends.content page owned]
    exact ResourceStore.get?_dropNamespace _ _ path
  · intro staysOpen
    rw [whenEnded isEnded, Lists, session_modifySocket]
    exact run.listed number known staysOpen (fun wasKnown => absurd wasKnown (unknown number))

/-- Content that says hello. -/
def greeting : Resource :=
  ⟨"text/plain", [104, 101, 108, 108, 111]⟩

/-- A client that leaves in the middle of a message. The listeners refuse the end of its session,
or fail and ask for another page. -/
theorem client_leaves_nothing :
    let listener : LifecycleListener :=
      ⟨1, "audit", fun _ _ => .vetoed "never", 0, 0, fun _ _ => .done⟩
    let server := (new .empty ⟨[]⟩ .standard 300 []).addLifecycleListener listener
    let steps : List UsageStep := [.base (.connect "a"), .letGo 0, .base (.createPage "p" "index"),
      .ask 0 (.addListener (.watching 1 "log" true [.destroy, .init "p"])),
      .base (.text 0 (logRequest "p") true), .publish (some "p") "x" greeting,
      .publish none "y" greeting, .base (.text 0 "unfinished" false), .shut 0]
    let next := server.proceedAll steps
    let closed := next.disconnect 0
    server.connections = #[] ∧ server.pages = .empty ∧ server.sessions = .empty ∧
      (connectedIds steps).Nodup ∧ 0 < next.connections.size ∧
      next.sessions.get? "a" = some 0 ∧ next.resources.get? "_fujion_p/x" = some greeting ∧
      (closed.session 0).phase = .destroyed ∧ (closed.socket 0).inbox = .empty ∧
      closed.pages.Gone 0 ∧ closed.sessions.get? "a" ≠ some 0 ∧
      closed.resources.get? "_fujion_p/x" = none ∧ closed.resources.get? "y" = some greeting := by
  intro listener server steps next closed
  have distinct : (connectedIds steps).Nodup := by decide +kernel
  have known : 0 < next.connections.size := by decide +kernel
  have claims : gained 0 server steps = [0] := by decide +kernel
  have owned : next.pageOf 0 = some 0 := by decide +kernel
  have notEnded : (next.session 0).phase ≠ .destroyed := by decide +kernel
  have isPage : (next.pages.page 0).id = "p" := by decide +kernel
  have wasListed : next.sessions.get? "a" = some 0 := by decide +kernel
  have wasThere : next.resources.get? "_fujion_p/x" = some greeting := by decide +kernel
  have isThere : next.resources.get? "y" = some greeting := by decide +kernel
  have isOwn : (Resource.place "_fujion_p/x").1 = "p" := by decide +kernel
  have isForeign : (Resource.place "y").1 ≠ "p" := by decide +kernel
  obtain ⟨isDestroyed, isEmpty, gone, whole, -⟩ :=
    teardown_of_closed_connection rfl rfl rfl distinct known
  obtain ⟨unlisted, content⟩ := whole notEnded
  refine ⟨rfl, rfl, rfl, distinct, known, wasListed, wasThere, isDestroyed, isEmpty,
    gone 0 (claims ▸ List.mem_cons_self), unlisted "a", ?_, ?_⟩
  · rw [content 0 owned, isPage, if_pos isOwn]
  · rw [content 0 owned, isPage, if_neg isForeign]
    exact isThere

/-- A session that is ended directly, before its connection closes: the server still lists it, and
the content of its page can still be had. -/
theorem ended_session_is_still_listed :
    let next := (new .empty ⟨[]⟩ .standard 300 []).proceedAll [.base (.connect "a"),
      .base (.createPage "p" "index"), .base (.text 0 (logRequest "p") true),
      .publish (some "p") "x" greeting, .ask 0 .destroy]
    let closed := next.disconnect 0
    (closed.session 0).phase = .destroyed ∧ closed.sessions.get? "a" = some 0 ∧
      closed.resources.get? "_fujion_p/x" = some greeting := by
  decide +kernel

end Server

end LivePage
