import LivePage.Session.Synchronizer

/-!
Contract: what becomes of the invocations of a session.

Owns:
- the calls to a synchronizer, and sequences of them in any order;
- the depth of brackets that calls lead to, read off the calls alone;
- the invocations that outlast all clears, read off the calls alone;
- what calls let out and what they leave pending are just these.

Does not own: the socket that frames travel on.
-/

namespace LivePage

/-- Something asked of a synchronizer. -/
inductive SynchronizerCall where
  | start
  | stop
  | clear
  | invoke (invocation : Invocation)

namespace SynchronizerCall

/-- How many brackets are open after a call. -/
def depthFrom : SynchronizerCall → Nat → Nat
  | .start, depth => depth + 1
  | .stop, depth => depth - 1
  | .clear, depth => depth
  | .invoke _, depth => depth

/-- How many brackets are open after calls, if none were before. -/
def depthAfter (calls : List SynchronizerCall) : Nat :=
  calls.foldl (fun depth call => call.depthFrom depth) 0

theorem depthAfter_append_singleton (calls : List SynchronizerCall) (call : SynchronizerCall) :
    depthAfter (calls ++ [call]) = call.depthFrom (depthAfter calls) := by
  rw [depthAfter, List.foldl_append]
  rfl

/-- Whether an invocation that was made at a depth is forgotten later on: there is a clear
before the last bracket around it closes. -/
def isForgotten : Nat → List SynchronizerCall → Bool
  | 0, _ => false
  | _ + 1, [] => false
  | _ + 1, .clear :: _ => true
  | depth + 1, call :: rest => isForgotten (call.depthFrom (depth + 1)) rest

/-- The invocations that calls make from a depth on, in their order and without those that are
forgotten. -/
def survivors : Nat → List SynchronizerCall → List Invocation
  | _, [] => []
  | depth, .invoke invocation :: rest =>
      if isForgotten depth rest then survivors depth rest
      else invocation :: survivors depth rest
  | depth, call :: rest => survivors (call.depthFrom depth) rest

theorem isForgotten_zero (calls : List SynchronizerCall) : isForgotten 0 calls = false := by
  cases calls <;> rfl

end SynchronizerCall

theorem Frame.invocations_ofBatch? (invocations : List Invocation) :
    (Frame.ofBatch? invocations).toList.flatMap Frame.invocations = invocations := by
  cases invocations with
  | nil => rfl
  | cons first rest => exact List.append_nil (first :: rest)

namespace Synchronizer

open SynchronizerCall

/-- A synchronizer after a call, and what the call lets out. -/
def perform (synchronizer : Synchronizer) : SynchronizerCall → Synchronizer × Option Frame
  | .start => (synchronizer.start, none)
  | .stop => synchronizer.stop
  | .clear => (synchronizer.clear, none)
  | .invoke invocation => synchronizer.invoke invocation

/-- A synchronizer after calls, and the frames that they let out. -/
def performAll (synchronizer : Synchronizer) : List SynchronizerCall → Synchronizer × List Frame
  | [] => (synchronizer, [])
  | call :: rest =>
      let first := synchronizer.perform call
      let others := first.1.performAll rest
      (others.1, first.2.toList ++ others.2)

theorem performAll_append (synchronizer : Synchronizer) (earlier later : List SynchronizerCall) :
    synchronizer.performAll (earlier ++ later) =
      (((synchronizer.performAll earlier).1.performAll later).1,
        (synchronizer.performAll earlier).2 ++
          ((synchronizer.performAll earlier).1.performAll later).2) := by
  induction earlier generalizing synchronizer with
  | nil => rfl
  | cons call rest inductionHypothesis =>
      simp only [List.cons_append, performAll, inductionHypothesis, List.append_assoc]

/-- What a call lets out or holds back was held back before, or is what it invokes. -/
theorem made_of_perform {synchronizer : Synchronizer} {call : SynchronizerCall}
    {invocation : Invocation}
    (isThere : invocation ∈ (synchronizer.perform call).2.toList.flatMap Frame.invocations ∨
      invocation ∈ (synchronizer.perform call).1.pending) :
    invocation ∈ synchronizer.pending ∨ call = .invoke invocation := by
  cases call with
  | start => exact .inl (isThere.resolve_left List.not_mem_nil)
  | stop =>
      change invocation ∈ synchronizer.stop.2.toList.flatMap Frame.invocations ∨
        invocation ∈ synchronizer.stop.1.pending at isThere
      unfold stop at isThere
      dsimp only at isThere
      split at isThere
      · exact .inl (isThere.resolve_left List.not_mem_nil)
      · rw [Frame.invocations_ofBatch?] at isThere
        exact .inl (isThere.resolve_right List.not_mem_nil)
  | clear => exact absurd isThere (by simp [perform, clear])
  | invoke made =>
      change invocation ∈ (synchronizer.invoke made).2.toList.flatMap Frame.invocations ∨
        invocation ∈ (synchronizer.invoke made).1.pending at isThere
      unfold invoke at isThere
      split at isThere
      · obtain isPending | isMade := List.mem_append.mp (isThere.resolve_left List.not_mem_nil)
        · exact .inl isPending
        · rw [List.mem_singleton.mp isMade]
          exact .inr rfl
      · obtain isMade | isPending := isThere
        · rw [List.mem_singleton.mp isMade]
          exact .inr rfl
        · exact .inl isPending

/-- What calls let out was held back before, or is among what they invoke. -/
theorem made_of_performAll {synchronizer : Synchronizer} {calls : List SynchronizerCall}
    {invocation : Invocation}
    (isOut : invocation ∈ (synchronizer.performAll calls).2.flatMap Frame.invocations) :
    invocation ∈ synchronizer.pending ∨ .invoke invocation ∈ calls := by
  induction calls generalizing synchronizer with
  | nil => exact absurd isOut List.not_mem_nil
  | cons call rest inductionHypothesis =>
      have held : invocation ∈ (synchronizer.perform call).2.toList.flatMap Frame.invocations ∨
          invocation ∈ (synchronizer.perform call).1.pending ∨ .invoke invocation ∈ rest := by
        rw [performAll, List.flatMap_append] at isOut
        exact (List.mem_append.mp isOut).imp_right inductionHypothesis
      obtain isThere | isLater : (_ ∨ _) ∨ .invoke invocation ∈ rest := or_assoc.mpr held
      · obtain isPending | rfl := made_of_perform isThere
        · exact .inl isPending
        · exact .inr List.mem_cons_self
      · exact .inr (List.mem_cons_of_mem _ isLater)

/-- Nothing is held back outside of brackets. -/
def Settled (synchronizer : Synchronizer) : Prop :=
  synchronizer.depth = 0 → synchronizer.pending = []

theorem settled_new : Settled .new :=
  fun _ => rfl

theorem depth_perform (synchronizer : Synchronizer) (call : SynchronizerCall) :
    (synchronizer.perform call).1.depth = call.depthFrom synchronizer.depth := by
  cases call with
  | start => rfl
  | stop =>
      show (synchronizer.stop).1.depth = synchronizer.depth - 1
      unfold stop
      dsimp only
      split <;> rfl
  | clear => rfl
  | invoke invocation =>
      show (synchronizer.invoke invocation).1.depth = synchronizer.depth
      unfold invoke
      split <;> rfl

theorem Settled.perform {synchronizer : Synchronizer} (settled : synchronizer.Settled)
    (call : SynchronizerCall) : (synchronizer.perform call).1.Settled := by
  intro isZero
  rw [depth_perform] at isZero
  cases call with
  | start => cases isZero
  | stop =>
      have notAbove : ¬synchronizer.depth - 1 > 0 := by
        have noneLeft : synchronizer.depth - 1 = 0 := isZero
        omega
      show (synchronizer.stop).1.pending = []
      unfold stop
      dsimp only
      rw [if_neg notAbove]
  | clear => rfl
  | invoke invocation =>
      have noneOpen : synchronizer.depth = 0 := isZero
      show (synchronizer.invoke invocation).1.pending = []
      unfold invoke isQueueing
      rw [noneOpen]
      exact settled noneOpen

/-- No frame is let out while a bracket is open. -/
theorem perform_eq_none {synchronizer : Synchronizer} {call : SynchronizerCall}
    (isOpen : 0 < call.depthFrom synchronizer.depth) : (synchronizer.perform call).2 = none := by
  cases call with
  | start => rfl
  | stop =>
      show (synchronizer.stop).2 = none
      have leftOpen : synchronizer.depth - 1 > 0 := isOpen
      unfold stop
      dsimp only
      rw [if_pos leftOpen]
  | clear => rfl
  | invoke invocation =>
      show (synchronizer.invoke invocation).2 = none
      have isQueueing : synchronizer.isQueueing = true := decide_eq_true isOpen
      unfold invoke
      rw [if_pos isQueueing]

/-- The outermost stop lets out all that is pending. -/
theorem perform_stop_of_one {synchronizer : Synchronizer} (isOne : synchronizer.depth = 1) :
    (synchronizer.perform .stop).2 = Frame.ofBatch? synchronizer.pending := by
  show (synchronizer.stop).2 = Frame.ofBatch? synchronizer.pending
  unfold stop
  rw [isOne]
  rfl

theorem settled_performAll {synchronizer : Synchronizer} (settled : synchronizer.Settled)
    (calls : List SynchronizerCall) : (synchronizer.performAll calls).1.Settled := by
  induction calls generalizing synchronizer with
  | nil => exact settled
  | cons call rest inductionHypothesis => exact inductionHypothesis (settled.perform call)

theorem depth_performAll (synchronizer : Synchronizer) (calls : List SynchronizerCall) :
    (synchronizer.performAll calls).1.depth =
      calls.foldl (fun depth call => call.depthFrom depth) synchronizer.depth := by
  induction calls generalizing synchronizer with
  | nil => rfl
  | cons call rest inductionHypothesis =>
      rw [List.foldl_cons, ← depth_perform synchronizer call]
      exact inductionHypothesis (synchronizer.perform call).1

/-- What is pending now, if it outlasts later calls, and what outlasts them of their own. -/
def outlasting (synchronizer : Synchronizer) (calls : List SynchronizerCall) : List Invocation :=
  (bif isForgotten synchronizer.depth calls then [] else synchronizer.pending) ++
    survivors synchronizer.depth calls

/-- One call moves invocations from the pending ones into a frame at most. -/
theorem outlasting_cons {synchronizer : Synchronizer} (settled : synchronizer.Settled)
    (call : SynchronizerCall) (rest : List SynchronizerCall) :
    synchronizer.outlasting (call :: rest) =
      (synchronizer.perform call).2.toList.flatMap Frame.invocations ++
        (synchronizer.perform call).1.outlasting rest := by
  obtain ⟨depth, pending⟩ := synchronizer
  cases call with
  | start =>
      cases depth with
      | zero =>
          have nothing : pending = [] := settled rfl
          simp [outlasting, perform, start, nothing, survivors, depthFrom]
      | succ depth => simp [outlasting, perform, start, isForgotten, survivors, depthFrom]
  | stop =>
      rcases depth with _ | _ | depth
      · have nothing : pending = [] := settled rfl
        simp [outlasting, perform, stop, nothing, Frame.ofBatch?, survivors, depthFrom]
      · have released := Frame.invocations_ofBatch? pending
        simp [outlasting, perform, stop, released, isForgotten, isForgotten_zero, survivors,
          depthFrom]
      · simp [outlasting, perform, stop, isForgotten, survivors, depthFrom]
  | clear =>
      cases depth with
      | zero =>
          have nothing : pending = [] := settled rfl
          simp [outlasting, perform, clear, nothing, survivors, depthFrom]
      | succ depth => simp [outlasting, perform, clear, isForgotten, survivors, depthFrom]
  | invoke invocation =>
      cases depth with
      | zero =>
          have nothing : pending = [] := settled rfl
          simp [outlasting, perform, invoke, isQueueing, nothing, Frame.invocations,
            isForgotten_zero, survivors]
      | succ depth =>
          cases forgotten : isForgotten (depth + 1) rest
          · simp [outlasting, perform, invoke, isQueueing, isForgotten, depthFrom, survivors,
              forgotten]
          · simp [outlasting, perform, invoke, isQueueing, isForgotten, depthFrom, survivors,
              forgotten]

/-- What calls let out, in the order of the frames, and what they leave pending are the
invocations that outlast them. -/
theorem sent_append_pending {synchronizer : Synchronizer} (settled : synchronizer.Settled)
    (calls : List SynchronizerCall) :
    (synchronizer.performAll calls).2.flatMap Frame.invocations ++
        (synchronizer.performAll calls).1.pending =
      synchronizer.outlasting calls := by
  induction calls generalizing synchronizer with
  | nil =>
      cases isZero : synchronizer.depth <;>
        simp [performAll, outlasting, isZero, isForgotten, survivors]
  | cons call rest inductionHypothesis =>
      have others := inductionHypothesis (settled.perform call)
      simp only [performAll, List.flatMap_append, List.append_assoc]
      rw [others, outlasting_cons settled]

theorem sent_append_pending_new (calls : List SynchronizerCall) :
    (new.performAll calls).2.flatMap Frame.invocations ++ (new.performAll calls).1.pending =
      survivors 0 calls := by
  rw [sent_append_pending settled_new, outlasting]
  show (bif isForgotten 0 calls then [] else []) ++ survivors 0 calls = survivors 0 calls
  rw [isForgotten_zero]
  rfl

/-- A clear takes away just what is pending. -/
theorem survivors_clear (calls : List SynchronizerCall) :
    survivors 0 (calls ++ [.clear]) ++ (new.performAll calls).1.pending = survivors 0 calls := by
  have ofClear := sent_append_pending_new (calls ++ [.clear])
  rw [performAll_append] at ofClear
  rw [← ofClear, ← sent_append_pending_new calls]
  simp [performAll, perform, clear]

end Synchronizer

end LivePage
