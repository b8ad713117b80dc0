import LivePage.Proofs.Page.Registry
import LivePage.Proofs.Server.Exclusive

/-!
Contract: what a server does on the turn of a session.

Owns:
- turns on which a session keeps its page: on its own connection, with its page and what that
  emits, and with the lifecycle listeners;
- the turn on which a session claims a page that nobody has, and the one on which it ends.

Does not own: the requests that lead to turns.
-/

namespace LivePage

namespace Server

open PageState

variable {server : Server} {number : Nat}

/-! ## On the own connection -/

theorem connection_modifyConnection_eq (server : Server) (number other : Nat)
    (change : Connection → Connection) :
    (server.modifyConnection number change).connection other =
      if other = number ∧ number < server.connections.size then change (server.connection number)
      else server.connection other := by
  split
  · next isKnown =>
      obtain ⟨rfl, known⟩ := isKnown
      exact connection_modifyConnection known change
  · next isOther =>
      by_cases same : other = number
      · subst same
        have unknown : ¬other < server.connections.size := fun known => isOther ⟨rfl, known⟩
        simp [connection, modifyConnection, unknown]
      · exact connection_modifyConnection_of_ne same change

/-- A connection that was never made is as good as new. -/
theorem connection_of_unknown (unknown : server.connections.size ≤ number) :
    server.connection number = default := by
  simp [connection, Nat.not_lt.mpr unknown]

/-- Changes of a connection that leave its session its number and its page. -/
theorem stay_modifyConnection (exclusive : server.Exclusive) {change : Connection → Connection}
    (sameNumber : (change (server.connection number)).session.number =
      (server.connection number).session.number)
    (samePage : (change (server.connection number)).session.page? =
      (server.connection number).session.page?) :
    Stay number server (server.modifyConnection number change) := by
  have sizes : (server.modifyConnection number change).connections.size =
      server.connections.size := Array.size_modify
  have numbers (other : Nat) : ((server.modifyConnection number change).session other).number =
      (server.session other).number := by
    unfold session
    rw [connection_modifyConnection_eq]
    split
    · next isNumber => rw [isNumber.1, sameNumber]
    · rfl
  have owners (other : Nat) : (server.modifyConnection number change).pageOf other =
      server.pageOf other := by
    unfold pageOf session
    rw [connection_modifyConnection_eq]
    split
    · next isNumber => rw [isNumber.1, samePage]
    · rfl
  refine ⟨⟨?_, sizes, ?_, fun _ _ => rfl, fun _ _ _ _ => rfl⟩, owners number⟩
  · refine exclusive.of_same ?_ owners rfl (fun _ => .refl _) (fun _ => rfl)
    intro other known
    rw [numbers]
    exact exclusive.numbered other (sizes ▸ known)
  · exact fun other different => connection_modifyConnection_of_ne different change

theorem stay_modifySocket (exclusive : server.Exclusive) (change : Socket → Socket) :
    Stay number server (server.modifySocket number change) :=
  stay_modifyConnection exclusive rfl rfl

theorem stay_withSynchronizer (exclusive : server.Exclusive)
    (synchronizer : Session → Synchronizer) :
    Stay number server (server.modifySession number (fun session =>
      session.withSynchronizer (synchronizer session))) :=
  stay_modifyConnection exclusive rfl rfl

/-- The frames on other connections among the entries of one frame. -/
theorem framesOn_frameEntries_of_ne {other : Nat} (different : other ≠ number)
    (listeners : List SessionListener) (frame : Frame) :
    framesOn other (frameEntries number listeners frame) = [] := by
  have first : framesOn other [.frame number frame] = [] := by
    simp [framesOn, Ne.symm different]
  show framesOn other ([.frame number frame] ++ invocationEntries listeners frame.invocations) = _
  rw [framesOn_append, first, framesOn_invocationEntries]
  rfl

theorem stay_sendAny (exclusive : server.Exclusive) (frame : Option Frame) :
    Stay number server (server.sendAny number frame) := by
  unfold sendAny send
  split
  · split
    · exact stay_record exclusive (fun _ different => framesOn_frameEntries_of_ne different _ _)
    · exact stay_refl number exclusive
  · exact stay_refl number exclusive

theorem stay_sendError (exclusive : server.Exclusive) (chain : List String) :
    Stay number server (server.sendError number chain) := by
  unfold sendError
  split
  · refine stay_record exclusive ?_
    intro other different
    simp [framesOn, Ne.symm different]
  · exact stay_refl number exclusive

theorem stay_release (exclusive : server.Exclusive) (step : Synchronizer × Option Frame) :
    Stay number server (server.release number step) := by
  have taken : Stay number server _ := stay_withSynchronizer exclusive (fun _ => step.1)
  unfold release
  dsimp only
  split
  · exact taken.trans (stay_sendAny taken.exclusive step.2)
  · exact taken

/-! ## With the own page -/

/-- A page that is changed by the session that it belongs to, and keeps its sink or ends. -/
theorem stay_putPage (exclusive : server.Exclusive) {page : Nat} {live : Page}
    (owned : server.pageOf number = some page)
    (stays : SameBinding (server.stateOf page) live.state ∨
      Ended (server.stateOf page) live.state) :
    Stay number server (server.putPage page live) := by
  obtain ⟨known, isSink⟩ := exclusive.claimed number page owned
  have reassigns : Reassigns number page server live (some page) (server.putPage page live) :=
    { size := rfl
      connections := fun _ _ => rfl
      sameNumber := rfl
      journal := rfl
      isOwner := owned
      pageCount := Array.size_modify
      isPage := by
        intro other
        have put := PageStore.page_put server.pages page other live
        simp only [known, and_true] at put
        exact put
      isFree := fun other otherOwned => exclusive.unique other number page otherOwned owned
      hadOnly := fun other otherOwned => Option.some.inj (otherOwned.symm.trans owned)
      owns := by
        intro other isOther
        refine ⟨(Option.some.inj isOther).symm, known, ?_⟩
        obtain same | ended := stays
        · rw [same.isDestroyed, same.sink]
          exact isSink
        · rw [ended.isDestroyed]
          exact nofun
      goes := by
        intro other isOther
        obtain same | ended := stays
        · rw [same.sink] at isOther
          have otherOwned := exclusive.bound page other isOther
          exact ⟨exclusive.unique other number page otherOwned owned, rfl⟩
        · rw [ended.sink] at isOther
          cases isOther
      ends := by
        obtain same | ended := stays
        · rw [same.isDestroyed, same.sink]
          exact exclusive.ended page
        · exact fun _ => ended.sink
      registry := fun _ _ isRegistered => isRegistered
      registered := by
        intro id isRegistered
        have isId := (exclusive.registered id page isRegistered).2.1
        refine ⟨?_, fun _ => rfl⟩
        obtain same | ended := stays
        · exact same.id.trans isId
        · exact ended.id.trans isId }
  exact ⟨reassigns.turn exclusive, rfl⟩

theorem stay_modifyPage (exclusive : server.Exclusive) {page : Nat}
    (owned : server.pageOf number = some page) {change : Page → Page}
    (same : ∀ live, SameBinding live.state (change live).state) :
    Stay number server (server.modifyPage page change) := by
  unfold modifyPage
  rw [PageStore.modify_eq_put]
  exact stay_putPage exclusive owned (Or.inl (same _))

theorem stay_modifyPageOf (exclusive : server.Exclusive) {change : PageState → PageState}
    (same : ∀ state, SameBinding state (change state)) :
    Stay number server (server.modifyPageOf number change) := by
  unfold modifyPageOf
  split
  · exact stay_refl number exclusive
  · next page owned => exact stay_modifyPage exclusive owned (fun live => same live.state)

theorem stay_deliverAll (exclusive : server.Exclusive) {effects : List PageEffect}
    (addressed : ∀ emission ∈ emissionsOf effects, emission.sink = .session number) :
    Stay number server (server.deliverAll effects) := by
  induction effects generalizing server with
  | nil => exact stay_refl number exclusive
  | cons effect rest inductionHypothesis =>
      have first : Stay number server (server.deliver effect) := by
        cases effect with
        | note entry => exact stay_record exclusive (fun _ _ => rfl)
        | emission emission =>
            obtain ⟨sink, invocation⟩ := emission
            have isSession : sink = .session number := addressed _ List.mem_cons_self
            subst isSession
            exact stay_release exclusive _
      refine first.trans (inductionHypothesis first.exclusive ?_)
      intro emission isEmitted
      refine addressed emission ?_
      rw [mem_emissionsOf] at isEmitted ⊢
      exact List.mem_cons_of_mem _ isEmitted

/-- A page on its way: what it emits reaches only the client of its session. -/
theorem stay_of_speaks (exclusive : server.Exclusive) {page : Nat} {effects : List PageEffect}
    {live : Page} (owned : server.pageOf number = some page)
    (speaks : Page.Speaks (server.pages.page page) effects live) :
    Stay number server ((server.putPage page live).deliverAll effects) := by
  have put := stay_putPage exclusive owned speaks.stays
  refine put.trans (stay_deliverAll put.exclusive ?_)
  intro emission isEmitted
  exact exclusive.sink_eq owned (speaks.addressed emission isEmitted)

/-- The same of a page that is heard on its way. -/
theorem stay_of_speaks_now (exclusive : server.Exclusive) {page : Nat} {effects : List PageEffect}
    {live : Page} (owned : server.pageOf number = some page)
    (speaks : Page.Speaks (server.pageNow page) effects live) :
    Stay number server ((server.putBack page live).deliverAll effects) :=
  stay_of_speaks exclusive owned speaks

theorem stay_reactOn (exclusive : server.Exclusive) (reaction : Reaction) :
    Stay number server (server.reactOn number reaction).1 := by
  unfold reactOn
  split
  · exact stay_refl number exclusive
  · next page owned =>
      exact stay_of_speaks_now exclusive owned (Page.speaks_run reaction (server.pageNow page))

/-! ## With the lifecycle listeners -/

theorem stay_tellLifecycle (exclusive : server.Exclusive) (event : LifecycleEvent)
    (listener : LifecycleListener) :
    Stay number server (tellLifecycle number event listener server) := by
  let entry : Entry :=
    .lifecycle event listener.name (server.session number).id (server.pageIdOf number)
  have recorded : Stay number server (server.record [entry]) :=
    stay_record exclusive (fun _ _ => rfl)
  exact recorded.trans (stay_reactOn recorded.exclusive _)

theorem stay_tellAll (exclusive : server.Exclusive) (event : LifecycleEvent)
    (listeners : List LifecycleListener) :
    Stay number server (tellAll number event listeners server).1 := by
  induction listeners generalizing server with
  | nil => exact stay_refl number exclusive
  | cons listener rest inductionHypothesis =>
      have told : Stay number server (tellLifecycle number event listener server) :=
        stay_tellLifecycle exclusive event listener
      unfold tellAll
      dsimp only
      split
      · exact told
      · exact told.trans (inductionHypothesis told.exclusive)

theorem stay_notifyLifecycle (exclusive : server.Exclusive) (event : LifecycleEvent) :
    Stay number server (server.notifyLifecycle number event).1 := by
  have dropped : Stay number server (server.dropContent number event) := by
    unfold dropContent
    split
    · exact stay_of_same exclusive rfl rfl (fun _ _ => rfl)
    · exact stay_refl number exclusive
  have told := dropped.trans (stay_tellAll dropped.exclusive event server.lifecycle)
  exact told.trans (stay_of_same told.exclusive rfl rfl (fun _ _ => rfl))

/-! ## The beginning and the end of a session's time with a page -/

/-- A session that has no page names one that belongs to another session. -/
def Contends (server : Server) (number : Nat) (pid : String) : Prop :=
  (server.session number).phase = .created ∧
    ∃ page other, server.pages.get? pid = some page ∧ server.pageOf other = some page

theorem pageOf_of_created (isCreated : (server.session number).phase = .created) :
    server.pageOf number = none := by
  unfold pageOf Session.page?
  rw [isCreated]
  rfl

/-- Claiming a page that nobody has. -/
theorem turn_claim (exclusive : server.Exclusive) (known : number < server.connections.size)
    {page : Nat} {pid : String} (isCreated : (server.session number).phase = .created)
    (isRegistered : server.pages.get? pid = some page)
    (isFree : ∀ other, server.pageOf other ≠ some page) {session : Session}
    (isNumber : session.number = number) (hasPage : session.page? = some page) :
    let bind (claimed : Page) : Page :=
      claimed.withState (claimed.state.bind (.session number))
    let next := server.modifySession number (fun _ => session)
    Turn number server { next with pages := server.pages.modify page bind } := by
  intro bind next
  obtain ⟨pageKnown, isId, holder⟩ := exclusive.registered pid page isRegistered
  -- a page that has ended is registered only as long as somebody has it
  have isAlive : (server.stateOf page).isDestroyed ≠ true := by
    intro isDestroyed
    obtain ⟨other, owned⟩ := holder isDestroyed
    exact isFree other owned
  have isSession : next.session number = session := session_modifySession known _
  have reassigns : Reassigns number page server (bind (server.pages.page page)) (some page)
      { next with pages := server.pages.modify page bind } :=
    { size := Array.size_modify
      connections := fun _ different => connection_modifyConnection_of_ne different _
      sameNumber := by
        show (next.session number).number = _
        rw [isSession, isNumber]
        exact (exclusive.numbered number known).symm
      journal := rfl
      isOwner := by
        show (next.session number).page? = some page
        rw [isSession]
        exact hasPage
      pageCount := Array.size_modify
      isPage := by
        intro other
        have change := PageStore.page_modify server.pages page other bind
        simp only [pageKnown, and_true] at change
        exact change
      isFree := fun other owned => absurd owned (isFree other)
      hadOnly := by
        intro other owned
        rw [pageOf_of_created isCreated] at owned
        cases owned
      owns := fun _ isOther => ⟨(Option.some.inj isOther).symm, pageKnown, fun _ => rfl⟩
      goes := by
        intro other isSink
        have same : some (Sink.session number) = some (.session other) := isSink
        cases same
        exact ⟨rfl, rfl⟩
      ends := fun isDestroyed => absurd isDestroyed isAlive
      registry := fun _ _ found => found
      registered := fun id found =>
        ⟨(exclusive.registered id page found).2.1, fun _ => rfl⟩ }
  exact reassigns.turn exclusive

theorem known_of_pageOf {page : Nat} (owned : server.pageOf number = some page) :
    number < server.connections.size := by
  apply Nat.lt_of_not_le
  intro unknown
  rw [pageOf, session, connection_of_unknown unknown] at owned
  cases owned

/-- The end of a session that has a page, which ends with it. -/
theorem turn_end (exclusive : server.Exclusive) {page : Nat}
    (owned : server.pageOf number = some page) {connection : Connection}
    (sameNumber : connection.session.number = (server.session number).number)
    (noPage : connection.session.page? = none) :
    let next := server.modifyConnection number (fun _ => connection)
    let left := server.pages.modify page Page.destroy
    Turn number server { next with pages := left.unregister (server.pages.page page).id } := by
  intro next left
  have pageKnown := (exclusive.claimed number page owned).1
  have isConnection : next.connection number = connection :=
    connection_modifyConnection (known_of_pageOf owned) _
  have isRegistered (id : String) :
      (left.unregister (server.pages.page page).id).get? id =
        if id = (server.pages.page page).id then none else server.pages.get? id :=
    Dict.get?_erase server.pages.registered (server.pages.page page).id id
  have isGone : (server.pages.page page).destroy.state.sink = none := by
    unfold Page.destroy
    split
    · next isDestroyed => exact exclusive.ended page isDestroyed
    · next isAlive =>
        show (server.pages.page page).state.destroy.sink = none
        unfold PageState.destroy
        rw [if_neg isAlive]
  have reassigns : Reassigns number page server (server.pages.page page).destroy none
      { next with pages := left.unregister (server.pages.page page).id } :=
    { size := Array.size_modify
      connections := fun _ different => connection_modifyConnection_of_ne different _
      sameNumber := by
        show (next.connection number).session.number = _
        rw [isConnection, sameNumber]
      journal := rfl
      isOwner := by
        show (next.connection number).session.page? = none
        rw [isConnection, noPage]
      pageCount := Array.size_modify
      isPage := by
        intro other
        have change := PageStore.page_modify server.pages page other Page.destroy
        simp only [pageKnown, and_true] at change
        exact change
      isFree := fun other otherOwned => exclusive.unique other number page otherOwned owned
      hadOnly := fun other otherOwned => Option.some.inj (otherOwned.symm.trans owned)
      owns := nofun
      goes := by
        intro other
        rw [isGone]
        exact nofun
      ends := fun _ => isGone
      registry := by
        intro id other found
        rw [isRegistered] at found
        split at found
        · cases found
        · exact found
      registered := by
        intro id found
        rw [isRegistered] at found
        split at found
        · cases found
        · next otherId =>
            exact absurd (exclusive.registered id page found).2.1.symm otherId }
  exact reassigns.turn exclusive

end Server

end LivePage
