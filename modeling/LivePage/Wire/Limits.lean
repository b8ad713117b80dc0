/-!
Contract: bounds on what clients send.

Owns:
- the largest first line of a binary message, and the largest message, in bytes.

Does not own: what happens to a message beyond a bound.
-/

namespace LivePage

structure MessageLimits where
  preamble : Nat
  message : Nat
deriving DecidableEq, Repr, Inhabited

/-- The bounds in use where none are given. -/
def MessageLimits.standard : MessageLimits :=
  ⟨65536, 16777216⟩

end LivePage
