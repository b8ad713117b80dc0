import LivePage.Wire.Envelope

/-!
Contract: putting messages together from fragments.

Owns:
- the assembler of one kind of message, with a bound on the message's bytes.

Does not own: which socket a fragment came from, and what the message says.
-/

namespace LivePage

/-- What a fragmented message consists of. -/
class Payload (φ : Type) where
  nothing : φ
  append : φ → φ → φ
  byteCount : φ → Nat

instance : Payload String := ⟨"", fun left right => left ++ right, String.utf8ByteSize⟩

instance : Payload (List UInt8) := ⟨[], fun left right => left ++ right, List.length⟩

/-- The fragments of one unfinished message. -/
structure Assembler (φ : Type) where
  limit : Nat
  pending : Option φ
  pendingBytes : Nat
  fragments : Nat

namespace Assembler

variable {φ : Type}

def new (limit : Nat) : Assembler φ :=
  ⟨limit, none, 0, 0⟩

def reset (assembler : Assembler φ) : Assembler φ :=
  new assembler.limit

def isPending (assembler : Assembler φ) : Bool :=
  assembler.pending.isSome

/-- Takes the next fragment. A message that grows beyond the limit is refused
and forgotten; the last fragment yields the whole message. -/
def push [Payload φ] (assembler : Assembler φ) (fragment : φ) (isLast : Bool) :
    Assembler φ × Except WireError (Option φ) :=
  let total := assembler.pendingBytes + Payload.byteCount fragment
  if total > assembler.limit then
    (assembler.reset, .error (.messageTooLarge assembler.limit))
  else if isLast then
    match assembler.pending with
    | none => (assembler, .ok (some fragment))
    | some pending => (assembler.reset, .ok (some (Payload.append pending fragment)))
  else
    let before := assembler.pending.getD Payload.nothing
    ({ assembler with
        pending := some (Payload.append before fragment)
        pendingBytes := total
        fragments := assembler.fragments + 1 },
      .ok none)

end Assembler

end LivePage
