import LivePage.Wire.Invocation

/-!
Contract: the way of invocations out of a session.

Owns:
- brackets that hold invocations back, and the batch sent at the end of the
  outermost one;
- the frames that invocations travel in.

Does not own: whether a frame reaches the client.
-/

namespace LivePage

/-- Invocations that travel together. -/
inductive Frame where
  | single (invocation : Invocation)
  | batch (first : Invocation) (rest : List Invocation)
deriving Inhabited

namespace Frame

def invocations : Frame → List Invocation
  | .single invocation => [invocation]
  | .batch first rest => first :: rest

/-- The frame of a batch; none without any invocation. -/
def ofBatch? : List Invocation → Option Frame
  | [] => none
  | first :: rest => some (.batch first rest)

def text : Frame → String
  | .single invocation => invocation.encode
  | .batch first rest => Invocation.batchText (first :: rest)

end Frame

/-- The open brackets and the invocations held back. -/
structure Synchronizer where
  depth : Nat
  pending : List Invocation
deriving Inhabited

namespace Synchronizer

def new : Synchronizer := ⟨0, []⟩

def isQueueing (synchronizer : Synchronizer) : Bool :=
  synchronizer.depth > 0

def start (synchronizer : Synchronizer) : Synchronizer :=
  { synchronizer with depth := synchronizer.depth + 1 }

/-- Closes one bracket; none need be open. With none left open, what was held
back is sent. -/
def stop (synchronizer : Synchronizer) : Synchronizer × Option Frame :=
  let depth := synchronizer.depth - 1
  if depth > 0 then ({ synchronizer with depth := depth }, none)
  else (⟨depth, []⟩, Frame.ofBatch? synchronizer.pending)

/-- Forgets what is held back. -/
def clear (synchronizer : Synchronizer) : Synchronizer :=
  { synchronizer with pending := [] }

/-- Sends an invocation, or holds it back while a bracket is open. -/
def invoke (synchronizer : Synchronizer) (invocation : Invocation) :
    Synchronizer × Option Frame :=
  if synchronizer.isQueueing then
    ({ synchronizer with pending := synchronizer.pending ++ [invocation] }, none)
  else (synchronizer, some (.single invocation))

end Synchronizer

end LivePage
