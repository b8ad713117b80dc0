import LivePage.Proofs.Server.SessionCalls

/-!
Contract: the life of a session.

Owns:
- calls to the sessions of a server, in any order;
- registries of live pages, which no call spoils;
- a session claims one page at most and ends once, and its end releases all that it had.

Does not own: requests of clients, which ask the same of sessions.
-/

namespace LivePage

/-! ## Steps of a life -/

/-- Something that happens to the sessions of a server: one is asked something, or there is a
new page to claim. -/
inductive LifeStep where
  | ask (number : Nat) (call : SessionCall SessionListener)
  | createPage (id src : String)

namespace Server

variable {server : Server} {number other page : Nat} {call : SessionCall SessionListener}

def undergo (server : Server) : LifeStep → Server
  | .ask number call => server.ask number call
  | .createPage id src => server.createPage id src

def undergoAll (server : Server) (steps : List LifeStep) : Server :=
  steps.foldl undergo server

/-- The page that a step makes a session claim. -/
def claim? (server : Server) (number : Nat) : LifeStep → Option Nat
  | .ask asked (.init pid) =>
      match server.initSession asked pid with
      | .ok (_, true) => if asked = number then server.pages.get? pid else none
      | _ => none
  | _ => none

/-- The pages that steps make a session claim. -/
def claims (number : Nat) : Server → List LifeStep → List Nat
  | _, [] => []
  | server, step :: rest =>
      (server.claim? number step).toList ++ claims number (server.undergo step) rest

/-! ## Sessions among live pages -/

/-- A session on a server that registers live pages. -/
structure Living (server : Server) (number : Nat) : Prop where
  known : number < server.connections.size
  isLive : server.pages.IsLive
  holds : ∀ page, (server.session number).phase = .initialized page → server.pages.Holds page

theorem living_of_created (known : number < server.connections.size)
    (isLive : server.pages.IsLive) (isCreated : (server.session number).phase = .created) :
    server.Living number :=
  ⟨known, isLive, fun _ isPhase => nomatch isCreated.symm.trans isPhase⟩

theorem Asked.isLive {after : Server} (asked : server.Asked other call after)
    (isLive : server.pages.IsLive) : after.pages.IsLive := by
  obtain same | ⟨page, pid, sink, -, bound⟩ | ⟨page, released⟩ := asked.pages
  · exact same ▸ isLive
  · exact bound ▸ isLive.bind page sink
  · exact released ▸ isLive.release page

theorem Asked.holds {after : Server} (asked : server.Asked other call after)
    (isLive : server.pages.IsLive) (holds : server.pages.Holds page) :
    after.pages.Holds page := by
  obtain same | ⟨claimed, pid, sink, isRegistered, bound⟩ | ⟨released, isReleased⟩ := asked.pages
  · exact same ▸ holds
  · exact bound ▸ holds.bind isLive isRegistered sink
  · exact isReleased ▸ holds.release released

theorem Living.ask (living : server.Living number) (asked : Nat)
    (call : SessionCall SessionListener) : (server.ask asked call).Living number := by
  have step := server.asked_ask asked call
  refine ⟨step.size.symm ▸ living.known, step.isLive living.isLive, ?_⟩
  intro page isPhase
  refine step.holds living.isLive ?_
  by_cases same : number = asked
  · subst same
    obtain hadPage | ⟨pid, -, isRegistered⟩ := step.owns page isPhase
    · exact living.holds page hadPage
    · exact living.isLive.holds isRegistered
  · rw [session, step.others number same] at isPhase
    exact living.holds page isPhase

theorem Living.undergo (living : server.Living number) (step : LifeStep) :
    (server.undergo step).Living number := by
  cases step with
  | ask asked call => exact living.ask asked call
  | createPage id src =>
      exact ⟨living.known, living.isLive.register rfl,
        fun page isPhase => (living.holds page isPhase).register _⟩

theorem Living.undergoAll (living : server.Living number) (steps : List LifeStep) :
    (server.undergoAll steps).Living number := by
  induction steps generalizing server with
  | nil => exact living
  | cons step rest inductionHypothesis => exact inductionHypothesis (living.undergo step)

/-! ## The way of a session -/

theorem phase_undergo (server : Server) (number : Nat) (step : LifeStep) :
    (server.session number).phase.LeadsTo ((server.undergo step).session number).phase := by
  cases step with
  | ask asked call =>
      have step := server.asked_ask asked call
      by_cases same : number = asked
      · subst same
        exact step.phase
      · show (server.session number).phase.LeadsTo ((server.ask asked call).session number).phase
        unfold session
        rw [step.others number same]
        exact .stays _
  | createPage id src => exact .stays _

theorem phase_undergoAll (server : Server) (number : Nat) (steps : List LifeStep) :
    (server.session number).phase.LeadsTo ((server.undergoAll steps).session number).phase := by
  induction steps generalizing server with
  | nil => exact .stays _
  | cons step rest inductionHypothesis =>
      exact (phase_undergo server number step).trans (inductionHypothesis (server.undergo step))

/-! ## Claims -/

theorem phase_claimPage (known : number < server.connections.size) (page : Nat) :
    ((server.claimPage number page).session number).phase = .initialized page := by
  unfold session claimPage
  rw [connection_exchange, if_pos ⟨rfl, known⟩]
  rfl

theorem claim?_init {asked : Nat} {pid : String} :
    server.claim? number (.ask asked (.init pid)) = some page ↔
      (∃ claimed, server.initSession asked pid = .ok (claimed, true)) ∧ asked = number ∧
        server.pages.get? pid = some page := by
  cases answered : server.initSession asked pid with
  | error error => simp [claim?, answered]
  | ok result =>
      obtain ⟨claimed, _ | _⟩ := result
      · simp [claim?, answered]
      · simp [claim?, answered]

/-- A step makes a session claim the page that it has afterwards, if it had none. -/
theorem claim?_eq_some_iff (known : number < server.connections.size) {step : LifeStep} :
    server.claim? number step = some page ↔
      (server.session number).phase = .created ∧
        ((server.undergo step).session number).phase = .initialized page := by
  constructor
  · intro isClaimed
    cases step with
    | createPage id src => cases isClaimed
    | ask asked call =>
        cases call with
        | init pid =>
            rw [claim?_init] at isClaimed
            obtain ⟨⟨claimed, answered⟩, isSame, isRegistered⟩ := isClaimed
            subst isSame
            obtain ⟨-, refused⟩ | ⟨other, isCreated, isOther, outcome⟩ :=
              server.ask_init asked pid
            · exact absurd answered (refused claimed)
            · cases isOther.symm.trans isRegistered
              refine ⟨isCreated, ?_⟩
              simp only [undergo, ask, outcome]
              exact phase_claimPage known page
        | destroy => cases isClaimed
        | addListener listener => cases isClaimed
        | removeListener listener => cases isClaimed
  · rintro ⟨isCreated, isPhase⟩
    have hadNone : ∀ page, (server.session number).phase ≠ .initialized page := by
      intro page hadPage
      rw [isCreated] at hadPage
      cases hadPage
    cases step with
    | createPage id src => exact absurd isPhase (hadNone page)
    | ask asked call =>
        have step := server.asked_ask asked call
        by_cases same : asked = number
        · subst same
          obtain hadPage | ⟨pid, rfl, isRegistered⟩ := step.owns page isPhase
          · exact absurd hadPage (hadNone page)
          · exact claim?_init.mpr
              ⟨⟨_, initSession_of_registered isCreated isRegistered⟩, rfl, isRegistered⟩
        · unfold undergo session at isPhase
          dsimp only at isPhase
          rw [step.others number (Ne.symm same)] at isPhase
          exact absurd isPhase (hadNone page)

theorem size_undergo (server : Server) (step : LifeStep) :
    (server.undergo step).connections.size = server.connections.size := by
  cases step with
  | ask asked call => exact (server.asked_ask asked call).size
  | createPage id src => rfl

theorem claims_of_not_created (known : number < server.connections.size)
    (notCreated : (server.session number).phase ≠ .created) (steps : List LifeStep) :
    claims number server steps = [] := by
  induction steps generalizing server with
  | nil => rfl
  | cons step rest inductionHypothesis =>
      have noClaim : server.claim? number step = none := by
        rw [Option.eq_none_iff_forall_ne_some]
        intro page isClaimed
        exact notCreated ((claim?_eq_some_iff known).mp isClaimed).1
      have stillNot : ((server.undergo step).session number).phase ≠ .created :=
        (phase_undergo server number step).ne_created notCreated
      unfold claims
      rw [noClaim, inductionHypothesis (server.size_undergo step ▸ known) stillNot]
      rfl

/-- A session claims one page at most, which is the one that it has as long as it does not end. -/
theorem claims_of_created (known : number < server.connections.size)
    (isCreated : (server.session number).phase = .created) (steps : List LifeStep) :
    (claims number server steps).length ≤ 1 ∧
      ∀ page, ((server.undergoAll steps).session number).phase = .initialized page →
        claims number server steps = [page] := by
  induction steps generalizing server with
  | nil => exact ⟨Nat.zero_le 1, fun page isPhase => nomatch isCreated.symm.trans isPhase⟩
  | cons step rest inductionHypothesis =>
      have nextKnown := server.size_undergo step ▸ known
      unfold claims
      cases isClaimed : server.claim? number step with
      | some page =>
          obtain ⟨-, isPhase⟩ := (claim?_eq_some_iff known).mp isClaimed
          have noMore : claims number (server.undergo step) rest = [] :=
            claims_of_not_created nextKnown (fun still => nomatch still.symm.trans isPhase) rest
          have later := phase_undergoAll (server.undergo step) number rest
          rw [noMore]
          refine ⟨Nat.le_refl 1, ?_⟩
          intro last isLast
          rw [isPhase, show ((server.undergo step).undergoAll rest).session number =
            (server.undergoAll (step :: rest)).session number from rfl, isLast] at later
          cases later
          rfl
      | none =>
          rw [Option.toList_none, List.nil_append]
          by_cases stillCreated : ((server.undergo step).session number).phase = .created
          · exact inductionHypothesis nextKnown stillCreated
          · -- the session has ended, since it has no page that it did not claim
            rw [claims_of_not_created nextKnown stillCreated]
            refine ⟨Nat.zero_le 1, ?_⟩
            intro page isLast
            have later := phase_undergoAll (server.undergo step) number rest
            change (((server.undergo step).undergoAll rest).session number).phase = _ at isLast
            rw [isLast] at later
            generalize isNext : ((server.undergo step).session number).phase = next at later
            cases later with
            | stays =>
                have isSome := (claim?_eq_some_iff known).mpr ⟨isCreated, isNext⟩
                exact nomatch isClaimed.symm.trans isSome
            | claims => exact absurd isNext stillCreated

/-! ## What a session leaves behind -/

/-- A session that has ended, with a page that it had. -/
structure Released (server : Server) (number page : Nat) : Prop where
  phase : (server.session number).phase = .destroyed
  isShutDown : (server.session number).executor.isShutDown = true
  isDetached : (server.socket number).isAttached = false
  isDestroyed : (server.stateOf page).isDestroyed = true
  isUnbound : (server.stateOf page).sink = none
  isFree : ∀ id, server.pages.get? id ≠ some page

theorem Released.ask {page : Nat} (released : server.Released number page)
    (known : number < server.connections.size) (call : SessionCall SessionListener) :
    (server.ask number call).Released number page := by
  have session : (server.ask number call).session number =
      (server.session number).afterEnd call := by
    rw [ask_of_destroyed released.phase, session_modifySession known]
  have socket : (server.ask number call).socket number = server.socket number := by
    rw [ask_of_destroyed released.phase, socket_modifySession known]
  have pages : (server.ask number call).pages = server.pages := by
    rw [ask_of_destroyed released.phase]
    rfl
  rw [Session.afterEnd_eq] at session
  refine ⟨?_, ?_, ?_, ?_, ?_, ?_⟩
  · rw [session]
    exact released.phase
  · rw [session]
    exact released.isShutDown
  · rw [socket]
    exact released.isDetached
  · unfold stateOf
    rw [pages]
    exact released.isDestroyed
  · unfold stateOf
    rw [pages]
    exact released.isUnbound
  · rw [pages]
    exact released.isFree

theorem Released.askAll (released : server.Released number page)
    (known : number < server.connections.size) (calls : List (SessionCall SessionListener)) :
    (server.askAll number calls).Released number page := by
  induction calls generalizing server with
  | nil => exact released
  | cons call rest inductionHypothesis =>
      exact inductionHypothesis (released.ask known call)
        ((server.asked_ask number call).size.symm ▸ known)

theorem Living.released_tearDown (living : server.Living number)
    (isPhase : (server.session number).phase = .initialized page) :
    (server.tearDown number page).Released number page := by
  have holds := living.holds page isPhase
  have session := session_tearDown living.known page
  have isPage : (server.tearDown number page).stateOf page =
      (server.pages.page page).destroy.state := by
    show ((server.pages.release page).page page).state = _
    rw [PageStore.page_release, if_pos ⟨rfl, holds.1⟩]
  refine ⟨?_, ?_, ?_, ?_, ?_, living.isLive.not_registered_release holds.1⟩
  · rw [session]
    rfl
  · rw [session]
    rfl
  · unfold socket tearDown
    rw [connection_exchange, if_pos ⟨rfl, living.known⟩]
    rfl
  · rw [isPage]
    exact Page.isDestroyed_destroy _
  · rw [isPage]
    exact Page.sink_destroy _ holds.2

/-! ## The life of a session -/

/-- What a session answers when it is asked for pages. -/
structure AnswersClaims (server : Server) (number : Nat) : Prop where
  destroyed : (server.session number).phase = .destroyed → ∀ pid,
    server.initSession number pid = .error (.destroyed (server.session number).id)
  own : ∀ page, (server.session number).phase = .initialized page →
    server.initSession number (server.pages.page page).id = .ok (server, false)
  mismatch : ∀ page, (server.session number).phase = .initialized page →
    ∀ pid, pid ≠ (server.pages.page page).id →
      server.initSession number pid = .error (.pageMismatch (server.pages.page page).id pid)
  unknown : (server.session number).phase = .created → ∀ pid, server.pages.get? pid = none →
    server.initSession number pid = .error (.unknownPage pid)
  claimed : (server.session number).phase = .created → ∀ pid page,
    server.pages.get? pid = some page →
      ∃ next, server.initSession number pid = .ok (next, true) ∧
        (next.session number).phase = .initialized page ∧
        (next.stateOf page).sink = some (.session (server.session number).number)
  /-- What is not claimed changes nothing. -/
  refused : ∀ pid, (∀ next, server.initSession number pid ≠ .ok (next, true)) →
    server.ask number (.init pid) = server

/-- How a session ends. -/
structure EndsOnce (server : Server) (number : Nat) : Prop where
  /-- Those who listen find all released, whatever others have asked before. Each entry is told
  once. -/
  withPage : ∀ page, (server.session number).phase = .initialized page →
    let listeners := (server.session number).listeners
    let calls := listeners.flatMap SessionListener.atEnd
    let ended := server.destroySession number
    ended = ((server.tearDown number page).askAll number calls).record
        (listeners.map (fun listener => .sessionEnded listener (server.session number).id)) ∧
      (∀ earlier, earlier <+: calls →
        ((server.tearDown number page).askAll number earlier).Released number page) ∧
      ended.Released number page ∧
      ended.journal = server.journal ++
        listeners.map (fun listener => .sessionEnded listener (server.session number).id)
  withoutPage : (server.session number).phase = .created →
    let ended := server.destroySession number
    (ended.session number).phase = .destroyed ∧
      (ended.session number).executor.isShutDown = true ∧
      (ended.socket number).isAttached = false ∧
      ended.journal = server.journal ∧ ended.pages = server.pages
  again : (server.session number).phase = .destroyed → server.destroySession number = server

theorem answersClaims (known : number < server.connections.size)
    (isLive : server.pages.IsLive) : server.AnswersClaims number where
  destroyed := initSession_of_destroyed
  own page isPhase := by
    rw [initSession_of_initialized isPhase, if_pos rfl]
  mismatch page isPhase pid different := by
    rw [initSession_of_initialized isPhase, if_neg (Ne.symm different)]
  unknown isCreated pid := initSession_of_unregistered isCreated
  claimed isCreated pid page isRegistered := by
    refine ⟨_, initSession_of_registered isCreated isRegistered, phase_claimPage known page, ?_⟩
    show ((server.pages.bind page _).page page).state.sink = _
    rw [PageStore.page_bind, if_pos ⟨rfl, (isLive pid page isRegistered).1⟩]
    rfl
  refused pid refused := by
    obtain ⟨unchanged, -⟩ | ⟨page, -, -, claimed⟩ := server.ask_init number pid
    · exact unchanged
    · exact absurd claimed (refused _)

theorem journal_askAll (known : number < server.connections.size)
    (isPhase : (server.session number).phase = .destroyed)
    (calls : List (SessionCall SessionListener)) :
    (server.askAll number calls).journal = server.journal := by
  rw [askAll_of_destroyed known isPhase]
  rfl

theorem endsOnce (living : server.Living number) : server.EndsOnce number where
  withPage page isPhase := by
    intro listeners calls ended
    have torn := living.released_tearDown isPhase
    have tornKnown : number < (server.tearDown number page).connections.size :=
      server.size_exchange number _ _ ▸ living.known
    have isEnded : ended = _ := destroySession_of_initialized isPhase
    refine ⟨isEnded, fun earlier _ => torn.askAll tornKnown earlier, ?_, ?_⟩
    · rw [isEnded]
      obtain ⟨phase, isShutDown, isDetached, isDestroyed, isUnbound, isFree⟩ :=
        torn.askAll tornKnown calls
      exact ⟨phase, isShutDown, isDetached, isDestroyed, isUnbound, isFree⟩
    · rw [isEnded]
      show ((server.tearDown number page).askAll number calls).journal ++ _ = _
      rw [journal_askAll tornKnown torn.phase]
      rfl
  withoutPage isCreated := by
    intro ended
    have isEnded : ended = _ := destroySession_of_created isCreated
    have connection : ended.connection number =
        (server.connection number).ended (server.session number).synchronizer := by
      rw [isEnded, connection_exchange, if_pos ⟨rfl, living.known⟩]
    refine ⟨?_, ?_, ?_, ?_, ?_⟩
    · rw [session, connection]
      rfl
    · rw [session, connection]
      rfl
    · rw [socket, connection]
      rfl
    · rw [isEnded]
      rfl
    · rw [isEnded]
      rfl
  again := destroySession_of_destroyed

/-- Whatever is asked of the sessions of a server that registers live pages, also by those who
are told of an end: a session goes from created to initialized to destroyed, or right to the
end. It claims one page at most, which is the one that it has as long as it is initialized. Its
end releases that page and all else that it had, and each of its listeners is told once. -/
theorem session_claims_once_and_ends_once (known : number < server.connections.size)
    (isCreated : (server.session number).phase = .created) (isLive : server.pages.IsLive)
    (steps : List LifeStep) :
    let next := server.undergoAll steps
    next.pages.IsLive ∧
      (∀ later, (next.session number).phase.LeadsTo
        ((next.undergoAll later).session number).phase) ∧
      (∀ page, next.pageOf number = some page ↔
        (next.session number).phase = .initialized page) ∧
      (claims number server steps).length ≤ 1 ∧
      (∀ page, (next.session number).phase = .initialized page →
        claims number server steps = [page]) ∧
      next.AnswersClaims number ∧ next.EndsOnce number := by
  intro next
  have living : next.Living number :=
    (living_of_created known isLive isCreated).undergoAll steps
  obtain ⟨atMostOne, isOwn⟩ := claims_of_created known isCreated steps
  refine ⟨living.isLive, next.phase_undergoAll number, ?_, atMostOne, isOwn,
    answersClaims living.known living.isLive, endsOnce living⟩
  intro page
  unfold pageOf Session.page?
  cases (next.session number).phase with
  | created => exact ⟨nofun, nofun⟩
  | initialized other => exact ⟨fun same => congrArg _ (Option.some.inj same), fun
      | rfl => rfl⟩
  | destroyed => exact ⟨nofun, nofun⟩

/-- A listener that fails, and that asks at the end for another end and for the page. -/
theorem failing_listener_is_told_once :
    let server := ((((new .empty ⟨[]⟩ .standard 300 []).createPage "p" "index").connect "a").1)
    let listener : SessionListener := .watching 1 "log" true [.destroy, .init "p"]
    let steps : List LifeStep := [.ask 0 (.addListener listener), .ask 0 (.init "q"),
      .ask 0 (.init "p"), .ask 0 (.init "p")]
    let next := server.undergoAll steps
    0 < server.connections.size ∧ (server.session 0).phase = .created ∧ server.pages.IsLive ∧
      (next.session 0).phase = .initialized 0 ∧ claims 0 server steps = [0] ∧
      (next.destroySession 0).Released 0 0 ∧
      (next.destroySession 0).journal.length = 1 := by
  intro server listener steps next
  have known : 0 < server.connections.size := by decide +kernel
  have isLive : server.pages.IsLive := PageStore.isLive_empty.register rfl
  have isPhase : (next.session 0).phase = .initialized 0 := by decide +kernel
  obtain ⟨-, -, -, -, isOwn, -, endsOnce⟩ :=
    session_claims_once_and_ends_once known rfl isLive steps
  obtain ⟨-, -, released, told⟩ := endsOnce.withPage 0 isPhase
  refine ⟨known, rfl, isLive, isPhase, isOwn 0 isPhase, released, ?_⟩
  rw [told]
  decide +kernel

end Server

end LivePage
