import LivePage.Proofs.Server.RequestTurn

/-!
Contract: several clients on one server.

Owns:
- runs of connections, pages, messages and ends of connections, in any order;
- as long as no new session names a page of another one, each page belongs to one session,
  which its invocations go to, and clients leave the pages of others alone;
- a new session that names the page of another one takes it over.

Does not own: what single requests do.
-/

namespace LivePage

/-- Something that happens to a server: a connection, a page, what the application does about a
page, a fragment of a message, or the end of a connection. -/
inductive ServerStep where
  | connect (id : String)
  | createPage (id src : String)
  | setHandler (page : Nat) (name : String) (handler : EventHandler)
  | addListener (page : Nat) (target eventType : String) (listener : EventHandler)
  | text (number : Nat) (fragment : String) (isLast : Bool)
  | binary (number : Nat) (fragment : List UInt8) (isLast : Bool)
  | close (number : Nat)

/-- The connection that a client acts on. -/
def ServerStep.connection? : ServerStep → Option Nat
  | .text number _ _ => some number
  | .binary number _ _ => some number
  | .close number => some number
  | _ => none

namespace Server

variable {server : Server} {number : Nat}

def advance (server : Server) : ServerStep → Server
  | .connect id => (server.connect id).1
  | .createPage id src => server.createPage id src
  | .setHandler page name handler =>
      server.modifyPage page (fun live => live.setHandler name handler)
  | .addListener page target eventType listener =>
      server.modifyPage page (fun live => live.addListener target eventType listener)
  | .text number fragment isLast => server.receiveText number fragment isLast
  | .binary number fragment isLast => server.receiveBinary number fragment isLast
  | .close number => server.disconnect number

def advanceAll (server : Server) (steps : List ServerStep) : Server :=
  steps.foldl advance server

/-- By a step, a new session names the page of another one. -/
def TakesOver (server : Server) : ServerStep → Prop
  | .text number fragment isLast => server.IsContested .text number fragment isLast
  | .binary number fragment isLast => server.IsContested .binary number fragment isLast
  | _ => False

/-- No session names the page of another one at any time. -/
def Peaceful : Server → List ServerStep → Prop
  | _, [] => True
  | server, step :: rest => ¬server.TakesOver step ∧ (server.advance step).Peaceful rest

instance (server : Server) (number : Nat) (pid : String) :
    Decidable (server.Contends number pid) :=
  decidable_of_iff ((server.session number).phase = .created ∧
      ∃ other < server.connections.size, (server.pages.get? pid).isSome ∧
        server.pageOf other = server.pages.get? pid) <| by
    refine and_congr_right (fun _ => ⟨?_, ?_⟩)
    · rintro ⟨other, -, isRegistered, owned⟩
      obtain ⟨page, isPage⟩ := Option.isSome_iff_exists.mp isRegistered
      exact ⟨page, other, isPage, owned.trans isPage⟩
    · rintro ⟨page, other, isPage, owned⟩
      exact ⟨other, known_of_pageOf owned, Option.isSome_iff_exists.mpr ⟨page, isPage⟩,
        owned.trans isPage.symm⟩

instance {φ : Type} [Payload φ] (server : Server) (kind : MessageKind φ) (number : Nat)
    (fragment : φ) (isLast : Bool) :
    Decidable (server.IsContested kind number fragment isLast) :=
  match arrives : server.arriving kind number fragment isLast with
  | none => isFalse (fun contested => by
      obtain ⟨envelope, isEnvelope, -⟩ := contested
      rw [arrives] at isEnvelope
      cases isEnvelope)
  | some envelope => decidable_of_iff (server.Contends number envelope.pid) <| by
      unfold IsContested
      rw [arrives]
      simp

instance (server : Server) : (step : ServerStep) → Decidable (server.TakesOver step)
  | .text number fragment isLast =>
      inferInstanceAs (Decidable (server.IsContested .text number fragment isLast))
  | .binary number fragment isLast =>
      inferInstanceAs (Decidable (server.IsContested .binary number fragment isLast))
  | .connect _ => inferInstanceAs (Decidable False)
  | .createPage _ _ => inferInstanceAs (Decidable False)
  | .setHandler _ _ _ => inferInstanceAs (Decidable False)
  | .addListener _ _ _ _ => inferInstanceAs (Decidable False)
  | .close _ => inferInstanceAs (Decidable False)

instance decidablePeaceful : (server : Server) → (steps : List ServerStep) →
    Decidable (server.Peaceful steps)
  | _, [] => isTrue trivial
  | server, step :: rest =>
      have := decidablePeaceful (server.advance step) rest
      inferInstanceAs (Decidable (¬server.TakesOver step ∧ (server.advance step).Peaceful rest))

/-! ## Single steps -/

theorem exclusive_of_fresh (noConnections : server.connections = #[])
    (noPages : server.pages = .empty) : server.Exclusive := by
  have noOwner (number : Nat) : server.pageOf number = none := by
    simp [pageOf, session, connection, noConnections]
    rfl
  have isBlank (page : Nat) : server.stateOf page = default := by
    simp [stateOf, PageStore.page, noPages, PageStore.empty]
    rfl
  have isUnbound : (default : PageState).sink = none := rfl
  refine ⟨?_, ?_, ?_, ?_, ?_, ?_⟩
  · intro number known
    rw [noConnections] at known
    exact absurd known (Nat.not_lt_zero number)
  · intro number page owned
    rw [noOwner] at owned
    cases owned
  · intro first second page owned
    rw [noOwner] at owned
    cases owned
  · intro page number isSink
    rw [isBlank, isUnbound] at isSink
    cases isSink
  · intro page _
    rw [isBlank]
    rfl
  · intro id page isRegistered
    rw [noPages] at isRegistered
    cases isRegistered

theorem connection_connect (server : Server) (id : String) (other : Nat) :
    (server.connect id).1.connection other =
      if other = server.connections.size then .new server.connections.size id
      else server.connection other := by
  simp only [connect, connection, Array.getElem?_push]
  split <;> rfl

/-- A new session has no page. -/
theorem exclusive_connect (exclusive : server.Exclusive) (id : String) :
    (server.connect id).1.Exclusive := by
  have owners (other : Nat) : (server.connect id).1.pageOf other = server.pageOf other := by
    unfold pageOf session
    rw [connection_connect]
    split
    · next isNew =>
        rw [connection_of_unknown (Nat.le_of_eq isNew.symm)]
        rfl
    · rfl
  refine exclusive.of_same ?_ owners rfl (fun _ => .refl _) (fun _ => rfl)
  intro other known
  unfold session
  rw [connection_connect]
  split
  · next isNew => exact isNew.symm
  · next isOld =>
      have isKnown : other < server.connections.size + 1 := by
        simpa [connect] using known
      exact exclusive.numbered other (by omega)

/-- A new page belongs to nobody. -/
theorem exclusive_createPage (exclusive : server.Exclusive) (id src : String) :
    (server.createPage id src).Exclusive := by
  let fresh : PageState := .new id src server.now
  have isState (page : Nat) : (server.createPage id src).stateOf page =
      if page = server.pages.pages.size then fresh else server.stateOf page := by
    show ((server.pages.register _).page page).state = _
    rw [PageStore.page_register]
    split <;> rfl
  have isNumber (key : String) : (server.createPage id src).pages.get? key =
      if key = id then some server.pages.pages.size else server.pages.get? key :=
    PageStore.get?_register server.pages _ key
  have pageCount : (server.createPage id src).pages.pages.size = server.pages.pages.size + 1 :=
    PageStore.size_register server.pages _
  refine ⟨exclusive.numbered, ?_, exclusive.unique, ?_, ?_, ?_⟩
  · intro number page owned
    obtain ⟨known, isSink⟩ := exclusive.claimed number page owned
    rw [isState, if_neg (Nat.ne_of_lt known), pageCount]
    exact ⟨Nat.lt_succ_of_lt known, isSink⟩
  · intro page number
    rw [isState]
    split
    · intro isSink
      cases isSink
    · exact exclusive.bound page number
  · intro page
    rw [isState]
    split
    · intro isDestroyed
      cases isDestroyed
    · exact exclusive.ended page
  · intro key page isRegistered
    rw [isNumber] at isRegistered
    rw [isState, pageCount]
    split at isRegistered
    · next isKey =>
        cases isRegistered
        rw [if_pos rfl, isKey]
        refine ⟨Nat.lt_succ_self _, rfl, ?_⟩
        intro isDestroyed
        cases isDestroyed
    · obtain ⟨known, isId, holder⟩ := exclusive.registered key page isRegistered
      rw [if_neg (Nat.ne_of_lt known)]
      exact ⟨Nat.lt_succ_of_lt known, isId, holder⟩

/-- What does not touch the states of pages. -/
theorem exclusive_modifyPage (exclusive : server.Exclusive) (page : Nat) {change : Page → Page}
    (sameState : ∀ live, (change live).state = live.state) :
    (server.modifyPage page change).Exclusive := by
  refine exclusive.of_same exclusive.numbered (fun _ => rfl) Array.size_modify ?_ (fun _ => rfl)
  intro other
  have isState : (server.modifyPage page change).stateOf other = server.stateOf other := by
    unfold stateOf modifyPage
    dsimp only
    rw [PageStore.page_modify]
    split
    · next isPage => rw [sameState, isPage.1]
    · rfl
  rw [isState]
  exact .refl _

/-- What a client does is a turn of its own session. -/
theorem turn_advance (exclusive : server.Exclusive) {step : ServerStep}
    (isClient : step.connection? = some number) (isFree : ¬server.TakesOver step) :
    Turn number server (server.advance step) := by
  cases step with
  | text other fragment isLast =>
      cases isClient
      show Turn number server (server.receiveText number fragment isLast)
      rw [receiveText_eq_receive]
      exact turn_receive exclusive isFree
  | binary other fragment isLast =>
      cases isClient
      show Turn number server (server.receiveBinary number fragment isLast)
      rw [receiveBinary_eq_receive]
      exact turn_receive exclusive isFree
  | close other =>
      cases isClient
      exact turn_disconnect exclusive
  | connect => cases isClient
  | createPage => cases isClient
  | setHandler => cases isClient
  | addListener => cases isClient

theorem exclusive_advance (exclusive : server.Exclusive) {step : ServerStep}
    (isFree : ¬server.TakesOver step) : (server.advance step).Exclusive := by
  cases step with
  | connect id => exact exclusive_connect exclusive id
  | createPage id src => exact exclusive_createPage exclusive id src
  | setHandler page name handler => exact exclusive_modifyPage exclusive page (fun _ => rfl)
  | addListener page target eventType listener =>
      exact exclusive_modifyPage exclusive page (fun _ => rfl)
  | text number fragment isLast => exact (turn_advance exclusive rfl isFree).exclusive
  | binary number fragment isLast => exact (turn_advance exclusive rfl isFree).exclusive
  | close number => exact (turn_advance exclusive rfl isFree).exclusive

/-! ## Runs -/

theorem exclusive_advanceAll (exclusive : server.Exclusive) {steps : List ServerStep}
    (peaceful : server.Peaceful steps) : (server.advanceAll steps).Exclusive := by
  induction steps generalizing server with
  | nil => exact exclusive
  | cons step rest inductionHypothesis =>
      exact inductionHypothesis (exclusive_advance exclusive peaceful.1) peaceful.2

/-- As long as no new session names a page of another one, a page belongs to one session at
most. Whatever is invoked on the page, and what its handlers and the making of its components
emit, goes to that session. Whatever a client does, the connections and pages of others stay as
they are, and no frame goes to them. -/
theorem page_belongs_to_one_session (noConnections : server.connections = #[])
    (noPages : server.pages = .empty) {steps : List ServerStep}
    (peaceful : server.Peaceful steps) :
    let next := server.advanceAll steps
    next.Exclusive ∧
      (∀ number page, next.pageOf number = some page →
        ((next.stateOf page).isDestroyed = false → ∀ invocation,
          next.invokeOnPage number invocation = next.invoke number invocation) ∧
        (∀ fuel, ∀ emission ∈ emissionsOf ((next.pages.page page).drain fuel 0).2.1,
          emission.sink = .session number) ∧
        ∀ tree, ∀ emission ∈ ((next.stateOf page).materialize tree none).1.emitted,
          emission.sink = .session number) ∧
      ∀ step number, step.connection? = some number → ¬next.TakesOver step →
        Turn number next (next.advance step) := by
  intro next
  have exclusive : next.Exclusive :=
    exclusive_advanceAll (exclusive_of_fresh noConnections noPages) peaceful
  refine ⟨exclusive, ?_, fun _ _ isClient isFree => turn_advance exclusive isClient isFree⟩
  intro number page owned
  refine ⟨?_, ?_, ?_⟩
  · intro isAlive invocation
    have isSink : (next.pages.page page).state.sink = some (.session number) :=
      (exclusive.claimed number page owned).2 isAlive
    exact invokeOnPage_eq_invoke owned isSink invocation
  · intro fuel emission isEmitted
    have speaks := Page.speaks_drain fuel 0 (next.pages.page page)
    exact exclusive.sink_eq owned (speaks.addressed emission isEmitted)
  · intro tree emission isEmitted
    have speaks := (next.stateOf page).speaks_materialize tree none
    exact exclusive.sink_eq owned (speaks.2 emission isEmitted)

/-- A request of a type that every server handles. -/
def logRequest (pid : String) : String :=
  "\x7b\"pid\":\"" ++ pid ++ "\",\"type\":\"log\",\"data\":\x7b\x7d\x7d"

/-- Two clients with a page each. -/
theorem two_clients_have_a_page_each :
    let server := new .empty ⟨[]⟩ .standard 300 []
    let steps : List ServerStep := [.connect "a", .connect "b", .createPage "p" "index",
      .createPage "q" "index", .text 0 (logRequest "p") true, .text 1 (logRequest "q") true]
    server.connections = #[] ∧ server.pages = .empty ∧ server.Peaceful steps ∧
      (server.advanceAll steps).pageOf 0 = some 0 ∧ (server.advanceAll steps).pageOf 1 = some 1 ∧
      (server.advanceAll steps).Exclusive := by
  intro server steps
  have peaceful : server.Peaceful steps := by decide +kernel
  have owned : (server.advanceAll steps).pageOf 0 = some 0 := by decide +kernel
  have otherOwned : (server.advanceAll steps).pageOf 1 = some 1 := by decide +kernel
  exact ⟨rfl, rfl, peaceful, owned, otherOwned,
    (page_belongs_to_one_session rfl rfl peaceful).1⟩

/-- A second client names the page of the first one: it gets the page, what is invoked on the
page reaches it and not the first one, and when it leaves, the page ends. -/
theorem second_client_takes_page_over :
    let server := (new .empty ⟨[]⟩ .standard 300 []).advanceAll [.connect "a", .connect "b",
      .createPage "p" "index", .text 0 (logRequest "p") true, .text 1 (logRequest "p") true]
    let told := server.invokeOnPage 0 (.onClient "greet" [])
    server.pageOf 0 = some 0 ∧ server.pageOf 1 = some 0 ∧
      (server.stateOf 0).isDestroyed = false ∧
      framesOn 0 told.journal = [] ∧ (framesOn 1 told.journal).length = 1 ∧
      ((server.advance (.close 1)).stateOf 0).isDestroyed = true := by
  decide +kernel

end Server

end LivePage
