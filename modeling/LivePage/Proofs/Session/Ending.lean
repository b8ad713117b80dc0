import LivePage.Proofs.Page.Registry
import LivePage.Session.Basic

/-!
Contract: the end of a session.

Owns:
- what is left of a connection whose session ends, by the phase that it ends in;
- what listeners ask of a session that has ended changes its listeners only.

Does not own: the server that a session ends on.
-/

namespace LivePage

namespace Session

theorem afterEnd_eq (session : Session) (call : SessionCall SessionListener) :
    session.afterEnd call =
      { session with listeners := (session.afterEnd call).listeners } := by
  cases call <;> rfl

/-- Whatever is asked of a session that has ended, it concerns the listeners only. -/
theorem foldl_afterEnd (calls : List (SessionCall SessionListener)) (session : Session) :
    calls.foldl afterEnd session =
      { session with listeners := (calls.foldl afterEnd session).listeners } := by
  induction calls generalizing session with
  | nil => rfl
  | cons call rest inductionHypothesis =>
      rw [List.foldl_cons, inductionHypothesis, afterEnd_eq]

theorem notifyEnd_eq_foldl (session : Session) (told : List SessionListener) :
    session.notifyEnd told = (told.flatMap SessionListener.atEnd).foldl afterEnd session := by
  unfold notifyEnd
  rw [List.foldl_flatMap]

theorem notifyEnd_eq (session : Session) (told : List SessionListener) :
    session.notifyEnd told = { session with listeners := (session.notifyEnd told).listeners } := by
  rw [notifyEnd_eq_foldl]
  exact foldl_afterEnd _ session

end Session

namespace Connection

variable {connection : Connection}

/-- A connection whose session has ended, before anyone is told. -/
def ended (connection : Connection) (synchronizer : Synchronizer) : Connection :=
  ⟨connection.socket.detach, { connection.session with
    phase := .destroyed, executor := connection.session.executor.shutDown.1,
    synchronizer := synchronizer }, connection.isHeld⟩

theorem destroy_of_destroyed (isPhase : connection.session.phase = .destroyed)
    (pages : PageStore) : connection.destroy pages = (connection, pages, []) := by
  unfold destroy
  dsimp only
  rw [isPhase]

theorem destroy_of_created (isPhase : connection.session.phase = .created) (pages : PageStore) :
    connection.destroy pages = (connection.ended connection.session.synchronizer, pages, []) := by
  unfold destroy
  dsimp only
  rw [isPhase]
  rfl

/-- The page of a session ends with it, and its id is free. -/
theorem destroy_of_initialized {page : Nat}
    (isPhase : connection.session.phase = .initialized page) (pages : PageStore) :
    let left := connection.ended connection.session.synchronizer.start
    connection.destroy pages =
      (left.withSession (left.session.notifyEnd connection.session.listeners),
        pages.release page, connection.session.listeners) := by
  unfold destroy
  dsimp only
  rw [isPhase]
  rfl

end Connection

end LivePage
