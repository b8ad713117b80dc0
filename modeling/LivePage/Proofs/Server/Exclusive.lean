import LivePage.Proofs.Page.Emission
import LivePage.Proofs.Server.Delivery

/-!
Contract: pages that belong to one session each.

Owns:
- what it means that no two sessions of a server share a page;
- what a session may do on its turn: the connections and the pages of others stay as they are,
  and no page becomes shared;
- turns that give the page of a session, or one that nobody has, another state.

Does not own: what servers do on turns.
-/

namespace LivePage

namespace Server

open PageState

variable {server : Server} {number : Nat}

/-! ## Servers on which no page is shared -/

/-- The state of a page. -/
def stateOf (server : Server) (page : Nat) : PageState :=
  (server.pages.page page).state

/-- Each page belongs to one session at most, and that is where its invocations go. -/
structure Exclusive (server : Server) : Prop where
  numbered : ∀ number < server.connections.size, (server.session number).number = number
  claimed : ∀ number page, server.pageOf number = some page →
    page < server.pages.pages.size ∧
      ((server.stateOf page).isDestroyed = false →
        (server.stateOf page).sink = some (.session number))
  unique : ∀ first second page, server.pageOf first = some page →
    server.pageOf second = some page → first = second
  bound : ∀ page number, (server.stateOf page).sink = some (.session number) →
    server.pageOf number = some page
  ended : ∀ page, (server.stateOf page).isDestroyed = true → (server.stateOf page).sink = none
  /-- A page that has ended is registered only while its session lasts. -/
  registered : ∀ id page, server.pages.get? id = some page →
    page < server.pages.pages.size ∧ (server.stateOf page).id = id ∧
      ((server.stateOf page).isDestroyed = true → ∃ number, server.pageOf number = some page)

/-- What a page emits goes to the session that it belongs to. -/
theorem Exclusive.sink_eq (exclusive : server.Exclusive) {page : Nat} {sink : Sink}
    (owned : server.pageOf number = some page)
    (isSink : (server.stateOf page).sink = some sink) : sink = .session number := by
  cases isDestroyed : (server.stateOf page).isDestroyed with
  | true =>
      rw [exclusive.ended page isDestroyed] at isSink
      cases isSink
  | false =>
      have isSession := (exclusive.claimed number page owned).2 isDestroyed
      rw [isSession] at isSink
      exact (Option.some.inj isSink).symm

/-- Nothing has changed that matters to who has which page. -/
theorem Exclusive.of_same {before after : Server} (exclusive : before.Exclusive)
    (numbered : ∀ number < after.connections.size, (after.session number).number = number)
    (owners : ∀ number, after.pageOf number = before.pageOf number)
    (pageCount : after.pages.pages.size = before.pages.pages.size)
    (bindings : ∀ page, SameBinding (before.stateOf page) (after.stateOf page))
    (registry : ∀ id, after.pages.get? id = before.pages.get? id) : after.Exclusive where
  numbered := numbered
  claimed := by
    intro number page owned
    rw [owners] at owned
    obtain ⟨known, isSink⟩ := exclusive.claimed number page owned
    rw [(bindings page).isDestroyed, (bindings page).sink]
    exact ⟨pageCount ▸ known, isSink⟩
  unique := by
    intro first second page
    rw [owners, owners]
    exact exclusive.unique first second page
  bound := by
    intro page number
    rw [(bindings page).sink, owners]
    exact exclusive.bound page number
  ended := by
    intro page
    rw [(bindings page).isDestroyed, (bindings page).sink]
    exact exclusive.ended page
  registered := by
    intro id page isRegistered
    rw [registry] at isRegistered
    obtain ⟨known, isId, holder⟩ := exclusive.registered id page isRegistered
    rw [(bindings page).isDestroyed, (bindings page).id]
    refine ⟨pageCount ▸ known, isId, ?_⟩
    intro isDestroyed
    obtain ⟨number, owned⟩ := holder isDestroyed
    exact ⟨number, (owners number).trans owned⟩

/-! ## Turns of a session -/

/-- What is done on a session leaves the connections, frames and pages of others alone, and no
page becomes shared. -/
structure Turn (number : Nat) (before after : Server) : Prop where
  exclusive : after.Exclusive
  size : after.connections.size = before.connections.size
  connections : ∀ other, other ≠ number → after.connection other = before.connection other
  frames : ∀ other, other ≠ number →
    framesOn other after.journal = framesOn other before.journal
  pages : ∀ other, other ≠ number → ∀ page, before.pageOf other = some page →
    after.pages.page page = before.pages.page page

/-- A turn on which a session keeps its page. -/
structure Stay (number : Nat) (before after : Server) : Prop extends Turn number before after where
  page : after.pageOf number = before.pageOf number

theorem pageOf_of_connection {before after : Server} {other : Nat}
    (same : after.connection other = before.connection other) :
    after.pageOf other = before.pageOf other := by
  unfold pageOf session
  rw [same]

theorem Turn.trans {first second third : Server} (before : Turn number first second)
    (after : Turn number second third) : Turn number first third where
  exclusive := after.exclusive
  size := after.size.trans before.size
  connections other different :=
    (after.connections other different).trans (before.connections other different)
  frames other different := (after.frames other different).trans (before.frames other different)
  pages := by
    intro other different page owned
    have stillOwned : second.pageOf other = some page :=
      (pageOf_of_connection (before.connections other different)).trans owned
    exact (after.pages other different page stillOwned).trans
      (before.pages other different page owned)

theorem Stay.trans {first second third : Server} (before : Stay number first second)
    (after : Stay number second third) : Stay number first third :=
  ⟨before.toTurn.trans after.toTurn, after.page.trans before.page⟩

/-- What does not touch connections and pages, and sends nothing to others. -/
theorem stay_of_same {after : Server} (exclusive : server.Exclusive)
    (connections : after.connections = server.connections) (pages : after.pages = server.pages)
    (frames : ∀ other, other ≠ number →
      framesOn other after.journal = framesOn other server.journal) :
    Stay number server after := by
  have same (other : Nat) : after.connection other = server.connection other := by
    unfold connection
    rw [connections]
  have sameState (page : Nat) : after.stateOf page = server.stateOf page := by
    unfold stateOf
    rw [pages]
  refine ⟨⟨?_, congrArg Array.size connections, fun other _ => same other, frames, ?_⟩, ?_⟩
  · refine exclusive.of_same ?_ ?_ ?_ ?_ ?_
    · intro other known
      unfold session
      rw [same]
      exact exclusive.numbered other (connections ▸ known)
    · exact fun other => pageOf_of_connection (same other)
    · rw [pages]
    · intro page
      rw [sameState]
      exact .refl _
    · intro id
      rw [pages]
  · intro _ _ page _
    rw [pages]
  · exact pageOf_of_connection (same number)

theorem stay_refl (number : Nat) (exclusive : server.Exclusive) : Stay number server server :=
  stay_of_same exclusive rfl rfl (fun _ _ => rfl)

theorem stay_record (exclusive : server.Exclusive) {entries : List Entry}
    (own : ∀ other, other ≠ number → framesOn other entries = []) :
    Stay number server (server.record entries) := by
  refine stay_of_same exclusive rfl rfl ?_
  intro other different
  show framesOn other (server.journal ++ entries) = _
  rw [framesOn_append, own other different, List.append_nil]

/-! ## Turns that give a page another state -/

/-- A turn gives a page of a session, or one that nobody has, another state. Afterwards the
session has that page or none. -/
structure Reassigns (number page : Nat) (before : Server) (live : Page) (owner : Option Nat)
    (after : Server) : Prop where
  size : after.connections.size = before.connections.size
  connections : ∀ other, other ≠ number → after.connection other = before.connection other
  sameNumber : (after.session number).number = (before.session number).number
  journal : after.journal = before.journal
  isOwner : after.pageOf number = owner
  pageCount : after.pages.pages.size = before.pages.pages.size
  isPage : ∀ other, after.pages.page other =
    if other = page then live else before.pages.page other
  /-- Nobody else has the page, and the session has no other one. -/
  isFree : ∀ other, before.pageOf other = some page → other = number
  hadOnly : ∀ other, before.pageOf number = some other → other = page
  owns : ∀ other, owner = some other → other = page ∧ page < before.pages.pages.size ∧
    (live.state.isDestroyed = false → live.state.sink = some (.session number))
  goes : ∀ other, live.state.sink = some (.session other) → other = number ∧ owner = some page
  ends : live.state.isDestroyed = true → live.state.sink = none
  registry : ∀ id other, after.pages.get? id = some other → before.pages.get? id = some other
  registered : ∀ id, after.pages.get? id = some page → live.state.id = id ∧
    (live.state.isDestroyed = true → owner = some page)

theorem Reassigns.pageOf {page : Nat} {live : Page} {owner : Option Nat} {after : Server}
    (reassigns : Reassigns number page server live owner after) (other : Nat) :
    after.pageOf other = if other = number then owner else server.pageOf other := by
  split
  · next same => exact same ▸ reassigns.isOwner
  · next different => exact pageOf_of_connection (reassigns.connections other different)

theorem Reassigns.stateOf {page : Nat} {live : Page} {owner : Option Nat} {after : Server}
    (reassigns : Reassigns number page server live owner after) (other : Nat) :
    after.stateOf other = if other = page then live.state else server.stateOf other := by
  unfold Server.stateOf
  rw [reassigns.isPage]
  split <;> rfl

/-- The pages of other sessions are other pages. -/
theorem Reassigns.ne_page {page : Nat} {live : Page} {owner : Option Nat} {after : Server}
    (reassigns : Reassigns number page server live owner after) {other otherPage : Nat}
    (different : other ≠ number) (owned : server.pageOf other = some otherPage) :
    otherPage ≠ page := by
  rintro rfl
  exact different (reassigns.isFree other owned)

/-- Those who have other pages are other sessions. -/
theorem Reassigns.ne_number {page : Nat} {live : Page} {owner : Option Nat} {after : Server}
    (reassigns : Reassigns number page server live owner after) {other otherPage : Nat}
    (different : otherPage ≠ page) (owned : server.pageOf other = some otherPage) :
    other ≠ number := by
  rintro rfl
  exact different (reassigns.hadOnly otherPage owned)

theorem Reassigns.exclusive {page : Nat} {live : Page} {owner : Option Nat} {after : Server}
    (reassigns : Reassigns number page server live owner after) (exclusive : server.Exclusive) :
    after.Exclusive where
  numbered := by
    intro other known
    by_cases same : other = number
    · subst same
      rw [reassigns.sameNumber]
      exact exclusive.numbered other (reassigns.size ▸ known)
    · unfold session
      rw [reassigns.connections other same]
      exact exclusive.numbered other (reassigns.size ▸ known)
  claimed := by
    intro other otherPage owned
    rw [reassigns.pageOf] at owned
    rw [reassigns.stateOf, reassigns.pageCount]
    split at owned
    · next same =>
        obtain ⟨isPage, known, isSink⟩ := reassigns.owns otherPage owned
        rw [if_pos isPage, same, isPage]
        exact ⟨known, isSink⟩
    · next different =>
        rw [if_neg (reassigns.ne_page different owned)]
        exact exclusive.claimed other otherPage owned
  unique := by
    intro first second otherPage firstOwned secondOwned
    rw [reassigns.pageOf] at firstOwned secondOwned
    -- the session has no page but the reassigned one, and no other session has that
    split at firstOwned
    · next isFirst =>
        split at secondOwned
        · next isSecond => exact isFirst.trans isSecond.symm
        · next different =>
            have isPage := (reassigns.owns otherPage firstOwned).1
            exact absurd isPage (reassigns.ne_page different secondOwned)
    · next different =>
        split at secondOwned
        · have isPage := (reassigns.owns otherPage secondOwned).1
          exact absurd isPage (reassigns.ne_page different firstOwned)
        · exact exclusive.unique first second otherPage firstOwned secondOwned
  bound := by
    intro otherPage other isSink
    rw [reassigns.stateOf] at isSink
    rw [reassigns.pageOf]
    split at isSink
    · next isPage =>
        obtain ⟨same, isOwner⟩ := reassigns.goes other isSink
        rw [if_pos same, isOwner, isPage]
    · next different =>
        have owned := exclusive.bound otherPage other isSink
        rw [if_neg (reassigns.ne_number different owned), owned]
  ended := by
    intro otherPage isDestroyed
    rw [reassigns.stateOf] at isDestroyed ⊢
    split at isDestroyed
    · next isPage =>
        rw [if_pos isPage]
        exact reassigns.ends isDestroyed
    · next different =>
        rw [if_neg different]
        exact exclusive.ended otherPage isDestroyed
  registered := by
    intro id otherPage isRegistered
    obtain ⟨known, isId, holder⟩ :=
      exclusive.registered id otherPage (reassigns.registry id otherPage isRegistered)
    rw [reassigns.stateOf, reassigns.pageCount]
    refine ⟨known, ?_⟩
    split
    · next isPage =>
        rw [isPage] at isRegistered
        obtain ⟨isLiveId, isOwner⟩ := reassigns.registered id isRegistered
        refine ⟨isLiveId, fun isDestroyed => ⟨number, ?_⟩⟩
        rw [reassigns.isOwner, isOwner isDestroyed, isPage]
    · next different =>
        refine ⟨isId, fun isDestroyed => ?_⟩
        -- whoever has an ended page still has it, since the session did not
        obtain ⟨other, owned⟩ := holder isDestroyed
        refine ⟨other, ?_⟩
        rw [reassigns.pageOf, if_neg (reassigns.ne_number different owned), owned]

theorem Reassigns.turn {page : Nat} {live : Page} {owner : Option Nat} {after : Server}
    (reassigns : Reassigns number page server live owner after) (exclusive : server.Exclusive) :
    Turn number server after where
  exclusive := reassigns.exclusive exclusive
  size := reassigns.size
  connections := reassigns.connections
  frames other _ := by rw [reassigns.journal]
  pages := by
    intro other different otherPage owned
    rw [reassigns.isPage, if_neg (reassigns.ne_page different owned)]

end Server

end LivePage
