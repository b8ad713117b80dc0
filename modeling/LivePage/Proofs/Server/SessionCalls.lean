import LivePage.Proofs.Server.RequestTurn

/-!
Contract: calls to the sessions of a server.

Owns:
- what is asked of a session from outside, and by those who are told of its end;
- the answers of a session that is asked for a page, by its phase;
- the end of a session, by its phase;
- everything that a call may do to the server.

Does not own: what calls one after another come to.
-/

namespace LivePage

/-! ## The phases of a session -/

/-- The phases that a session may be in later on. -/
inductive SessionPhase.LeadsTo : SessionPhase → SessionPhase → Prop where
  | stays (phase : SessionPhase) : LeadsTo phase phase
  | claims (page : Nat) : LeadsTo .created (.initialized page)
  | ends (phase : SessionPhase) : LeadsTo phase .destroyed

theorem SessionPhase.LeadsTo.trans {first second third : SessionPhase}
    (before : first.LeadsTo second) (after : second.LeadsTo third) : first.LeadsTo third := by
  cases before with
  | stays => exact after
  | claims page =>
      cases after with
      | stays => exact .claims page
      | ends => exact .ends .created
  | ends =>
      cases after with
      | stays => exact .ends first
      | ends => exact .ends first

theorem SessionPhase.LeadsTo.ne_created {before after : SessionPhase}
    (leads : before.LeadsTo after) (notCreated : before ≠ .created) : after ≠ .created := by
  cases leads with
  | stays => exact notCreated
  | claims page => exact nofun
  | ends => exact nofun

namespace Server

variable {server : Server} {number other page : Nat}

/-- Does what is asked of a session. What the session refuses changes nothing. -/
def ask (server : Server) (number : Nat) : SessionCall SessionListener → Server
  | .init pid =>
      match server.initSession number pid with
      | .ok (next, _) => next
      | .error _ => server
  | .destroy => server.destroySession number
  | .addListener listener =>
      server.modifySession number (fun session => session.addListener listener)
  | .removeListener listener =>
      server.modifySession number (fun session => (session.removeListener listener).1)

def askAll (server : Server) (number : Nat) (calls : List (SessionCall SessionListener)) :
    Server :=
  calls.foldl (fun server call => server.ask number call) server

/-! ## Servers with a connection exchanged -/

/-- A server that has another connection in place of one, and other pages. -/
def exchange (server : Server) (number : Nat) (connection : Connection) (pages : PageStore) :
    Server :=
  { server.modifyConnection number (fun _ => connection) with pages := pages }

theorem connection_exchange (server : Server) (number other : Nat) (connection : Connection)
    (pages : PageStore) :
    (server.exchange number connection pages).connection other =
      if other = number ∧ number < server.connections.size then connection
      else server.connection other :=
  connection_modifyConnection_eq server number other (fun _ => connection)

theorem size_exchange (server : Server) (number : Nat) (connection : Connection)
    (pages : PageStore) :
    (server.exchange number connection pages).connections.size = server.connections.size :=
  Array.size_modify

theorem modifyConnection_eq_exchange (server : Server) (number : Nat)
    (change : Connection → Connection) :
    server.modifyConnection number change =
      server.exchange number (change (server.connection number)) server.pages := by
  have exchanged : server.modifyConnection number change =
      server.modifyConnection number (fun _ => change (server.connection number)) :=
    modifyConnection_congr rfl
  rw [exchanged]
  rfl

theorem exchange_same (server : Server) (number : Nat) :
    server.exchange number (server.connection number) server.pages = server := by
  have unchanged : server.modifyConnection number (fun connection => connection) = server :=
    modifyConnection_of_eq rfl
  rw [← modifyConnection_eq_exchange server number (fun connection => connection), unchanged]

theorem modifySession_exchange (server : Server) (number : Nat) (connection : Connection)
    (pages : PageStore) (change : Session → Session) :
    (server.exchange number connection pages).modifySession number change =
      server.exchange number (connection.withSession (change connection.session)) pages := by
  have changed := modifyConnection_modifyConnection server number (fun _ => connection)
    (fun connection => connection.withSession (change connection.session))
  show { (server.modifyConnection number (fun _ => connection)).modifyConnection number
    (fun connection => connection.withSession (change connection.session)) with pages := pages } = _
  rw [changed]
  rfl

/-- Only a connection has a session with a page. -/
theorem known_of_initialized (isPhase : (server.session number).phase = .initialized page) :
    number < server.connections.size := by
  have owned : server.pageOf number = some page := by
    rw [pageOf, Session.page?, isPhase]
    rfl
  exact known_of_pageOf owned

/-! ## The answers to a claim -/

/-- A session that has claimed a page. -/
def claimPage (server : Server) (number page : Nat) : Server :=
  let connection := server.connection number
  let session := connection.session
  server.exchange number (connection.withSession { session with phase := .initialized page })
    (server.pages.bind page (.session session.number))

theorem initSession_of_destroyed (isPhase : (server.session number).phase = .destroyed)
    (pid : String) :
    server.initSession number pid = .error (.destroyed (server.session number).id) := by
  unfold initSession Session.init
  rw [isPhase]

theorem initSession_of_initialized (isPhase : (server.session number).phase = .initialized page)
    (pid : String) :
    server.initSession number pid =
      if (server.pages.page page).id = pid then .ok (server, false)
      else .error (.pageMismatch (server.pages.page page).id pid) := by
  have same : server.modifySession number (fun _ => server.session number) = server :=
    modifyConnection_of_eq rfl
  unfold initSession Session.init
  rw [isPhase]
  dsimp only
  by_cases isPid : (server.pages.page page).id = pid
  · rw [if_pos isPid, if_pos isPid]
    dsimp only
    rw [same]
  · rw [if_neg isPid, if_neg isPid]

theorem initSession_of_unregistered (isCreated : (server.session number).phase = .created)
    {pid : String} (isUnknown : server.pages.get? pid = none) :
    server.initSession number pid = .error (.unknownPage pid) := by
  unfold initSession Session.init
  rw [isCreated]
  dsimp only
  rw [isUnknown]

theorem initSession_of_registered (isCreated : (server.session number).phase = .created)
    {pid : String} (isRegistered : server.pages.get? pid = some page) :
    server.initSession number pid = .ok (server.claimPage number page, true) := by
  have changed := server.modifyConnection_eq_exchange number (fun connection =>
    connection.withSession { server.session number with phase := .initialized page })
  unfold initSession Session.init
  rw [isCreated]
  dsimp only
  rw [isRegistered]
  dsimp only
  unfold modifySession
  rw [changed]
  rfl

/-- A session claims a page that is registered, if it has none yet and has not ended. Nothing
changes by all else that is asked of it about pages. -/
theorem ask_init (server : Server) (number : Nat) (pid : String) :
    (server.ask number (.init pid) = server ∧
        ∀ claimed, server.initSession number pid ≠ .ok (claimed, true)) ∨
      ∃ page, (server.session number).phase = .created ∧ server.pages.get? pid = some page ∧
        server.initSession number pid = .ok (server.claimPage number page, true) := by
  unfold ask
  dsimp only
  cases isPhase : (server.session number).phase with
  | destroyed =>
      rw [initSession_of_destroyed isPhase]
      exact .inl ⟨rfl, nofun⟩
  | initialized page =>
      rw [initSession_of_initialized isPhase]
      by_cases isPid : (server.pages.page page).id = pid
      · rw [if_pos isPid]
        exact .inl ⟨rfl, nofun⟩
      · rw [if_neg isPid]
        exact .inl ⟨rfl, nofun⟩
  | created =>
      cases isRegistered : server.pages.get? pid with
      | none =>
          rw [initSession_of_unregistered isPhase isRegistered]
          exact .inl ⟨rfl, nofun⟩
      | some page =>
          rw [initSession_of_registered isPhase isRegistered]
          exact .inr ⟨page, rfl, rfl, rfl⟩

/-! ## The end of a session -/

theorem destroySession_of_destroyed (isPhase : (server.session number).phase = .destroyed) :
    server.destroySession number = server := by
  unfold destroySession
  rw [Connection.destroy_of_destroyed isPhase]
  exact (record_nil _).trans (server.exchange_same number)

/-- Without a page, nobody is told of the end of a session, and all pages stay. -/
theorem destroySession_of_created (isPhase : (server.session number).phase = .created) :
    server.destroySession number =
      server.exchange number
        ((server.connection number).ended (server.session number).synchronizer) server.pages := by
  unfold destroySession
  rw [Connection.destroy_of_created isPhase]
  exact record_nil _

/-- The end of a session with its page, as those see it who are told of it. -/
def tearDown (server : Server) (number page : Nat) : Server :=
  server.exchange number
    ((server.connection number).ended (server.session number).synchronizer.start)
    (server.pages.release page)

/-- What is asked of a session that has ended concerns its listeners only. -/
theorem ask_of_destroyed (isPhase : (server.session number).phase = .destroyed)
    (call : SessionCall SessionListener) :
    server.ask number call =
      server.modifySession number (fun session => session.afterEnd call) := by
  have unchanged : server.modifySession number (fun session => session) = server :=
    modifyConnection_of_eq rfl
  cases call with
  | init pid =>
      simp only [ask, initSession_of_destroyed isPhase]
      exact unchanged.symm
  | destroy => exact (destroySession_of_destroyed isPhase).trans unchanged.symm
  | addListener listener => rfl
  | removeListener listener => rfl

theorem askAll_of_destroyed (known : number < server.connections.size)
    (isPhase : (server.session number).phase = .destroyed)
    (calls : List (SessionCall SessionListener)) :
    server.askAll number calls =
      server.modifySession number (fun session => calls.foldl Session.afterEnd session) := by
  induction calls generalizing server with
  | nil => exact (modifyConnection_of_eq rfl).symm
  | cons call rest inductionHypothesis =>
      have stillKnown : number < (server.ask number call).connections.size := by
        rw [ask_of_destroyed isPhase]
        exact Array.size_modify.symm ▸ known
      have stillEnded : ((server.ask number call).session number).phase = .destroyed := by
        rw [ask_of_destroyed isPhase, session_modifySession known, Session.afterEnd_eq]
        exact isPhase
      show (server.ask number call).askAll number rest = _
      rw [inductionHypothesis stillKnown stillEnded, ask_of_destroyed isPhase]
      exact modifyConnection_modifyConnection server number _ _

theorem session_tearDown (known : number < server.connections.size) (page : Nat) :
    (server.tearDown number page).session number =
      ((server.connection number).ended (server.session number).synchronizer.start).session := by
  unfold session tearDown
  rw [connection_exchange, if_pos ⟨rfl, known⟩]
  rfl

/-- The end of a session with its page: all is torn down before those who listen ask anything,
and each of them is told. -/
theorem destroySession_of_initialized
    (isPhase : (server.session number).phase = .initialized page) :
    let session := server.session number
    server.destroySession number =
      ((server.tearDown number page).askAll number
        (session.listeners.flatMap SessionListener.atEnd)).record
          (session.listeners.map (fun listener => .sessionEnded listener session.id)) := by
  intro session
  have known : number < server.connections.size := known_of_initialized isPhase
  have isEnded : ((server.tearDown number page).session number).phase = .destroyed := by
    rw [session_tearDown known]
    rfl
  have asked := askAll_of_destroyed (server.size_exchange number _ _ ▸ known) isEnded
    (session.listeners.flatMap SessionListener.atEnd)
  let left := (server.connection number).ended session.synchronizer.start
  have sameId : (left.session.notifyEnd session.listeners).id = session.id := by
    rw [Session.notifyEnd_eq]
    rfl
  rw [asked, tearDown, modifySession_exchange, ← Session.notifyEnd_eq_foldl, ← sameId]
  unfold destroySession
  rw [Connection.destroy_of_initialized isPhase]
  rfl

/-- In any phase, the end of a session detaches its socket and ends its page. -/
theorem destroySession_eq (notEnded : (server.session number).phase ≠ .destroyed) :
    ∃ session pages told, session.id = (server.session number).id ∧ session.phase = .destroyed ∧
      (pages = server.pages ∧ (server.session number).phase = .created ∨
        ∃ page, pages = server.pages.release page ∧
          (server.session number).phase = .initialized page) ∧
      server.destroySession number =
        (server.exchange number
          ⟨(server.socket number).detach, session, (server.connection number).isHeld⟩
          pages).record told := by
  unfold destroySession
  cases isPhase : (server.session number).phase with
  | destroyed => exact absurd isPhase notEnded
  | created =>
      rw [Connection.destroy_of_created isPhase]
      refine ⟨_, server.pages, _, ?_, ?_, .inl ⟨rfl, rfl⟩, rfl⟩
      · rfl
      · rfl
  | initialized page =>
      rw [Connection.destroy_of_initialized isPhase]
      refine ⟨_, server.pages.release page, _, ?_, ?_, .inr ⟨page, rfl, rfl⟩, rfl⟩
      · rw [Session.notifyEnd_eq]
        rfl
      · rw [Session.notifyEnd_eq]
        rfl

/-! ## What a call may do -/

/-- A server after a call to one of its sessions. -/
structure Asked (server : Server) (number : Nat) (call : SessionCall SessionListener)
    (after : Server) : Prop where
  size : after.connections.size = server.connections.size
  others : ∀ other, other ≠ number → after.connection other = server.connection other
  phase : (server.session number).phase.LeadsTo (after.session number).phase
  /-- One page is claimed by its id, or one ends. -/
  pages : after.pages = server.pages ∨
    (∃ page pid sink, server.pages.get? pid = some page ∧
      after.pages = server.pages.bind page sink) ∨
    ∃ page, after.pages = server.pages.release page
  /-- A page that a session has gained was registered under the id that it was asked for. -/
  owns : ∀ page, (after.session number).phase = .initialized page →
    (server.session number).phase = .initialized page ∨
      ∃ pid, call = .init pid ∧ server.pages.get? pid = some page

variable {call : SessionCall SessionListener}

theorem asked_refl (server : Server) (number : Nat) : server.Asked number call server :=
  ⟨rfl, fun _ _ => rfl, .stays _, .inl rfl, fun _ isPhase => .inl isPhase⟩

theorem asked_exchange {connection : Connection} {pages : PageStore} (told : List Entry)
    (phase : (server.session number).phase.LeadsTo connection.session.phase)
    (isPages : pages = server.pages ∨
      (∃ page pid sink, server.pages.get? pid = some page ∧ pages = server.pages.bind page sink) ∨
      ∃ page, pages = server.pages.release page)
    (owns : ∀ page, connection.session.phase = .initialized page →
      (server.session number).phase = .initialized page ∨
        ∃ pid, call = .init pid ∧ server.pages.get? pid = some page) :
    server.Asked number call ((server.exchange number connection pages).record told) := by
  have session : ((server.exchange number connection pages).record told).session number =
        connection.session ∨
      ((server.exchange number connection pages).record told).session number =
        server.session number := by
    have exchanged := server.connection_exchange number number connection pages
    split at exchanged
    · exact .inl (congrArg Connection.session exchanged)
    · exact .inr (congrArg Connection.session exchanged)
  refine ⟨Array.size_modify, ?_, ?_, isPages, ?_⟩
  · intro other different
    exact (server.connection_exchange number other connection pages).trans
      (if_neg (fun same => different same.1))
  · obtain isNew | isOld := session
    · exact isNew ▸ phase
    · exact isOld ▸ .stays _
  · obtain isNew | isOld := session
    · exact isNew ▸ owns
    · exact isOld ▸ fun _ isPhase => .inl isPhase

/-- A call that changes a session in other ways than its phase. -/
theorem asked_modifySession (server : Server) (number : Nat) (change : Session → Session)
    (samePhase : (change (server.session number)).phase = (server.session number).phase) :
    server.Asked number call (server.modifySession number change) := by
  have changed : (server.exchange number
      ((server.connection number).withSession (change (server.session number)))
        server.pages).record [] = server.modifySession number change :=
    (record_nil _).trans (server.modifyConnection_eq_exchange number (fun connection =>
      connection.withSession (change connection.session))).symm
  rw [← changed]
  refine asked_exchange [] ?_ (.inl rfl) (fun page isPhase => .inl (samePhase.symm.trans isPhase))
  show (server.session number).phase.LeadsTo (change (server.session number)).phase
  rw [samePhase]
  exact .stays _

theorem asked_claimPage (isCreated : (server.session number).phase = .created) {pid : String}
    (isRegistered : server.pages.get? pid = some page) :
    server.Asked number (.init pid) (server.claimPage number page) := by
  rw [← record_nil (server.claimPage number page)]
  refine asked_exchange [] ?_ (.inr (.inl ⟨page, pid, _, isRegistered, rfl⟩)) ?_
  · rw [isCreated]
    exact .claims page
  · rintro _ ⟨⟩
    exact .inr ⟨pid, rfl, isRegistered⟩

theorem asked_init (server : Server) (number : Nat) (pid : String) :
    server.Asked number (.init pid) (server.ask number (.init pid)) := by
  obtain ⟨unchanged, -⟩ | ⟨page, isCreated, isRegistered, claimed⟩ := server.ask_init number pid
  · rw [unchanged]
    exact asked_refl server number
  · simp only [ask, claimed]
    exact asked_claimPage isCreated isRegistered

theorem asked_destroySession (server : Server) (number : Nat) :
    server.Asked number .destroy (server.destroySession number) := by
  by_cases isEnded : (server.session number).phase = .destroyed
  · rw [destroySession_of_destroyed isEnded]
    exact asked_refl server number
  · obtain ⟨session, pages, told, -, isPhase, left, ended⟩ := destroySession_eq isEnded
    rw [ended]
    refine asked_exchange told ?_ ?_ (fun page isPage => ?_)
    · show (server.session number).phase.LeadsTo session.phase
      rw [isPhase]
      exact .ends _
    · exact left.imp And.left (fun released => .inr (released.imp (fun _ => And.left)))
    · cases isPhase.symm.trans isPage

theorem asked_ask (server : Server) (number : Nat) (call : SessionCall SessionListener) :
    server.Asked number call (server.ask number call) := by
  cases call with
  | init pid => exact asked_init server number pid
  | destroy => exact asked_destroySession server number
  | addListener listener =>
      exact asked_modifySession server number (fun session => session.addListener listener) rfl
  | removeListener listener =>
      exact asked_modifySession server number
        (fun session => (session.removeListener listener).1) rfl

end Server

end LivePage
