import LivePage.Proofs.Server.RequestDeeds

/-!
Contract: what deeds come to that leave the session alive.

Owns:
- the synchronizer of a session after acts, and its frames, read off the deeds;
- the queue of its page after acts, and all other pages, which stay as they are.

Does not own: which deeds a request consists of.
-/

namespace LivePage

namespace Server

variable {server : Server} {number : Nat}

/-- The synchronizer of a session after deeds, and the frames that it lets out. -/
def relayAll (server : Server) (number : Nat) (deeds : List Deed) : Synchronizer × List Frame :=
  (server.session number).synchronizer.performAll (deeds.filterMap (Deed.callOn? number))

/-- A server after deeds that leave a session alive. -/
structure Progress (number : Nat) (before : Server) (deeds : List Deed) (after : Server) :
    Prop where
  reaches : after.Reaches number
  socket : after.socket number = before.socket number
  session : after.session number =
    (before.session number).withSynchronizer (before.relayAll number deeds).1
  frames : framesOn number after.journal =
    framesOn number before.journal ++ (before.relayAll number deeds).2
  handlers : after.handlers = before.handlers
  limits : after.limits = before.limits
  registered : after.pages.registered = before.pages.registered
  size : after.pages.pages.size = before.pages.pages.size
  queue : ∀ page, before.pageOf number = some page → page < before.pages.pages.size →
    Deed.Leads (before.stateOf page).queue deeds (after.stateOf page).queue
  others : ∀ page, before.pageOf number ≠ some page →
    after.pages.page page = before.pages.page page

theorem Progress.pageOf {before after : Server} {deeds : List Deed}
    (progress : Progress number before deeds after) :
    after.pageOf number = before.pageOf number := by
  unfold Server.pageOf
  rw [progress.session]
  rfl

theorem Progress.trans {first second third : Server} {earlier later : List Deed}
    (before : Progress number first earlier second) (after : Progress number second later third) :
    Progress number first (earlier ++ later) third := by
  have calls : first.relayAll number (earlier ++ later) =
      ((second.relayAll number later).1,
        (first.relayAll number earlier).2 ++ (second.relayAll number later).2) := by
    unfold relayAll
    rw [before.session, List.filterMap_append, Synchronizer.performAll_append]
    rfl
  exact
    { reaches := after.reaches
      socket := after.socket.trans before.socket
      session := by
        rw [after.session, before.session, calls]
        rfl
      frames := by rw [after.frames, before.frames, calls, List.append_assoc]
      handlers := after.handlers.trans before.handlers
      limits := after.limits.trans before.limits
      registered := after.registered.trans before.registered
      size := after.size.trans before.size
      queue := fun page owned known =>
        (before.queue page owned known).append
          (after.queue page (before.pageOf.trans owned) (before.size.symm ▸ known))
      others := fun page notOwned =>
        (after.others page (fun owned => notOwned (before.pageOf.symm.trans owned))).trans
          (before.others page notOwned) }

/-! ## Single acts -/

theorem Reaches.of_same {after : Server} (reaches : server.Reaches number)
    (size : after.connections.size = server.connections.size)
    (connection : after.connection number = server.connection number)
    (sessions : after.sessions = server.sessions) : after.Reaches number where
  known := size.symm ▸ reaches.known
  alive := by
    have alive := reaches.alive
    unfold isAlive session at alive ⊢
    rwa [connection, sessions]
  isOpen := by
    have isOpen := reaches.isOpen
    unfold socket at isOpen ⊢
    rwa [connection]

/-- What leaves the connection and all pages alone, and lets no synchronizer out. -/
theorem progress_of_same {after : Server} {deeds : List Deed} (reaches : server.Reaches number)
    (size : after.connections.size = server.connections.size)
    (connection : after.connection number = server.connection number)
    (sessions : after.sessions = server.sessions) (pages : after.pages = server.pages)
    (handlers : after.handlers = server.handlers) (limits : after.limits = server.limits)
    (frames : framesOn number after.journal = framesOn number server.journal)
    (noCalls : deeds.filterMap (Deed.callOn? number) = [])
    (noSteps : ∀ events, Deed.Leads events deeds events) :
    Progress number server deeds after := by
  have calls : server.relayAll number deeds = ((server.session number).synchronizer, []) := by
    rw [relayAll, noCalls]
    rfl
  exact
    { reaches := reaches.of_same size connection sessions
      socket := congrArg Connection.socket connection
      session := by
        rw [calls]
        exact congrArg Connection.session connection
      frames := by rw [frames, calls, List.append_nil]
      handlers := handlers
      limits := limits
      registered := congrArg PageStore.registered pages
      size := congrArg (fun pages => pages.pages.size) pages
      queue := fun page _ _ => by
        rw [stateOf, stateOf, pages]
        exact noSteps _
      others := fun page _ => congrArg (fun pages => pages.page page) pages }

theorem progress_of_aside {after : Server} (reaches : server.Reaches number)
    (same : server.Aside after) : Progress number server [] after := by
  have connection : after.connection number = server.connection number := by
    unfold Server.connection
    rw [same.connections]
  exact progress_of_same reaches (congrArg Array.size same.connections) connection same.sessions
    same.pages same.handlers same.limits (same.frames number) rfl (fun _ => rfl)

theorem relayAll_own (server : Server) (number : Nat) (asked : SynchronizerCall) :
    server.relayAll number [.call number asked] =
      (((server.session number).synchronizer.perform asked).1,
        ((server.session number).synchronizer.perform asked).2.toList) := by
  simp [relayAll, Deed.callOn?, Synchronizer.performAll]

/-- The session that is asked lets out what its synchronizer does. -/
theorem progress_relay_own (reaches : server.Reaches number) (asked : SynchronizerCall) :
    Progress number server [.call number asked] (server.relay number asked) := by
  let step := (server.session number).synchronizer.perform asked
  have sends : server.Sends number step.1 step.2.toList (server.relay number asked) :=
    sends_release reaches step
  obtain ⟨entries, released, -⟩ := release_eq_record server number step
  have isRelay : server.relay number asked = (server.modifySession number (fun session =>
      session.withSynchronizer step.1)).record entries := released
  have calls := relayAll_own server number asked
  exact
    { reaches := sends.reaches
      socket := by
        obtain ⟨synchronizer, isConnection⟩ := connection_relay server number number asked
        unfold socket
        rw [isConnection]
        rfl
      session := by
        rw [calls]
        exact sends.session
      frames := by rw [sends.journal, framesOn_append, framesOn_frameEntries, calls]
      handlers := by rw [isRelay]; rfl
      limits := by rw [isRelay]; rfl
      registered := by rw [isRelay]; rfl
      size := by rw [isRelay]; rfl
      queue := fun page _ _ => by rw [isRelay]; exact rfl
      others := fun page _ => by rw [isRelay]; rfl }

/-- A call to the synchronizer of another session concerns that one only. -/
theorem progress_relay_other (reaches : server.Reaches number) {target : Nat}
    (different : number ≠ target) (asked : SynchronizerCall) :
    Progress number server [.call target asked] (server.relay target asked) := by
  let step := (server.session target).synchronizer.perform asked
  obtain ⟨entries, released, others⟩ := release_eq_record server target step
  have isRelay : server.relay target asked = (server.modifySession target (fun session =>
      session.withSynchronizer step.1)).record entries := released
  have noCalls : [Deed.call target asked].filterMap (Deed.callOn? number) = [] := by
    simp [Deed.callOn?, Ne.symm different]
  rw [isRelay]
  refine progress_of_same reaches Array.size_modify
    (connection_modifyConnection_of_ne different _) rfl rfl rfl rfl ?_ noCalls (fun _ => rfl)
  show framesOn number (server.journal ++ entries) = _
  rw [framesOn_append, others number different, List.append_nil]

theorem progress_putPage (reaches : server.Reaches number) {page : Nat} {live : Page}
    {deeds : List Deed} (owned : server.pageOf number = some page)
    (follows : (server.pages.page page).Follows deeds live) :
    Progress number server deeds (server.putPage page live) := by
  have calls : server.relayAll number deeds = ((server.session number).synchronizer, []) := by
    rw [relayAll, Deed.callsOn_eq_nil follows.onQueue]
    rfl
  exact
    { reaches := reaches.of_same rfl rfl rfl
      socket := rfl
      session := by
        rw [calls]
        rfl
      frames := by
        rw [calls, List.append_nil]
        rfl
      handlers := rfl
      limits := rfl
      registered := rfl
      size := Array.size_modify
      queue := by
        intro other isOwned known
        cases owned.symm.trans isOwned
        show Deed.Leads _ deeds ((server.pages.put page live).page page).state.queue
        rw [PageStore.page_put, if_pos ⟨rfl, known⟩]
        exact follows.queue
      others := by
        intro other notOwned
        have different : ¬(other = page ∧ page < server.pages.pages.size) :=
          fun same => notOwned (same.1 ▸ owned)
        show (server.pages.put page live).page other = _
        rw [PageStore.page_put, if_neg different] }

theorem progress_of_act {after : Server} {deeds : List Deed} (reaches : server.Reaches number)
    (act : Act number server deeds after) (noEnd : .endSession ∉ deeds) :
    Progress number server deeds after := by
  cases act with
  | aside same => exact progress_of_aside reaches same
  | call session asked =>
      by_cases isOwn : number = session
      · subst isOwn
        exact progress_relay_own reaches asked
      · exact progress_relay_other reaches isOwn asked
  | page owned follows => exact progress_putPage reaches owned follows
  | endSession => exact absurd (List.mem_singleton_self _) noEnd

/-- Acts without the end of the session. -/
theorem progress_of_acts {after : Server} {deeds : List Deed} (reaches : server.Reaches number)
    (acts : Acts number server deeds after) (noEnd : .endSession ∉ deeds) :
    Progress number server deeds after := by
  induction acts with
  | refl server =>
      exact progress_of_aside reaches ⟨rfl, rfl, rfl, rfl, rfl, rfl, fun _ => rfl⟩
  | step act _ inductionHypothesis =>
      rw [List.mem_append, not_or] at noEnd
      have first := progress_of_act reaches act noEnd.1
      exact first.trans (inductionHypothesis first.reaches noEnd.2)

end Server

end LivePage
