import LivePage.Session.Socket

/-!
Contract: fragments and the messages that they are put together to.

Owns:
- what payloads have in common: joining fragments adds up their sizes;
- the slot of an inbox as a function of the fragments kept in it;
- what one more fragment does to the kept ones, and how often a run of fragments is refused.

Does not own: what is done with a whole message, and with a refusal.
-/

namespace LivePage

/-! ## Payloads -/

/-- Fragments are appended to nothing at first, and sizes add up. -/
class LawfulPayload (φ : Type) [Payload φ] : Prop where
  nothing_append : ∀ fragment : φ, Payload.append Payload.nothing fragment = fragment
  byteCount_nothing : Payload.byteCount (Payload.nothing : φ) = 0
  byteCount_append : ∀ left right : φ,
    Payload.byteCount (Payload.append left right) =
      Payload.byteCount left + Payload.byteCount right

instance : LawfulPayload String where
  nothing_append _ := String.empty_append
  byteCount_nothing := rfl
  byteCount_append _ _ := String.utf8ByteSize_append

instance : LawfulPayload (List UInt8) where
  nothing_append _ := List.nil_append _
  byteCount_nothing := rfl
  byteCount_append _ _ := List.length_append

namespace Payload

variable {φ : Type} [Payload φ]

/-- Fragments put together in their order. -/
def join (fragments : List φ) : φ :=
  fragments.foldl append nothing

/-- The bytes of fragments. -/
def total : List φ → Nat
  | [] => 0
  | fragment :: rest => byteCount fragment + total rest

theorem join_append_singleton (fragments : List φ) (fragment : φ) :
    join (fragments ++ [fragment]) = append (join fragments) fragment := by
  rw [join, List.foldl_append]
  rfl

theorem total_append_singleton (fragments : List φ) (fragment : φ) :
    total (fragments ++ [fragment]) = total fragments + byteCount fragment := by
  induction fragments with
  | nil => exact Nat.add_comm _ _
  | cons first rest inductionHypothesis =>
      rw [List.cons_append, total, total, inductionHypothesis, Nat.add_assoc]

variable [LawfulPayload φ]

theorem join_singleton (fragment : φ) : join [fragment] = fragment :=
  LawfulPayload.nothing_append fragment

/-- The size of a message is that of its fragments. -/
theorem byteCount_join (fragments : List φ) : byteCount (join fragments) = total fragments := by
  have fromStart : ∀ start : φ,
      byteCount (fragments.foldl append start) = byteCount start + total fragments := by
    induction fragments with
    | nil => exact fun _ => rfl
    | cons fragment rest inductionHypothesis =>
        intro start
        rw [List.foldl_cons, inductionHypothesis, LawfulPayload.byteCount_append, Nat.add_assoc]
        rfl
  rw [join, fromStart, LawfulPayload.byteCount_nothing, Nat.zero_add]

end Payload

namespace Inbox

open Payload

variable {φ : Type} [Payload φ]

/-! ## The kept fragments of a slot -/

/-- A fragment is too much beside those that are kept. -/
def Exceeds (limit : Nat) (kept : List φ) (fragment : φ) : Prop :=
  limit < total kept + byteCount fragment

instance (limit : Nat) (kept : List φ) (fragment : φ) : Decidable (Exceeds limit kept fragment) :=
  inferInstanceAs (Decidable (_ < _))

/-- The slot in which fragments are kept. -/
def slotOf (limit : Nat) (kept : List φ) : Option (Assembler φ) :=
  if kept.isEmpty then none else some ⟨limit, some (join kept), total kept, kept.length⟩

theorem slotOf_append_singleton (limit : Nat) (kept : List φ) (fragment : φ) :
    slotOf limit (kept ++ [fragment]) =
      some ⟨limit, some (append (join kept) fragment), total kept + byteCount fragment,
        kept.length + 1⟩ := by
  have isKept : (kept ++ [fragment]).isEmpty = false := by simp
  rw [slotOf, isKept, join_append_singleton, total_append_singleton, List.length_append]
  rfl

/-- The assembler that takes the next fragment. -/
theorem getD_slotOf (limit : Nat) (kept : List φ) :
    (slotOf limit kept).getD (Assembler.new limit) =
      ⟨limit, if kept.isEmpty then none else some (join kept), total kept, kept.length⟩ := by
  cases kept with
  | nil => rfl
  | cons first rest => rfl

theorem take_of_exceeds {limit : Nat} {kept : List φ} {fragment : φ}
    (exceeds : Exceeds limit kept fragment) (isLast : Bool) :
    take (slotOf limit kept) fragment isLast limit =
      (none, .error (.messageTooLarge limit)) := by
  have tooMuch : total kept + byteCount fragment > limit := exceeds
  unfold take Assembler.push
  rw [getD_slotOf]
  dsimp only
  rw [if_pos tooMuch]

theorem take_unfinished {limit : Nat} {kept : List φ} {fragment : φ}
    (fits : ¬Exceeds limit kept fragment) :
    take (slotOf limit kept) fragment false limit =
      (slotOf limit (kept ++ [fragment]), .ok none) := by
  have isRoom : ¬total kept + byteCount fragment > limit := fits
  rw [slotOf_append_singleton]
  unfold take Assembler.push
  rw [getD_slotOf]
  dsimp only
  rw [if_neg isRoom]
  cases kept with
  | nil => rfl
  | cons first rest => rfl

theorem take_last [LawfulPayload φ] {limit : Nat} {kept : List φ} {fragment : φ}
    (fits : ¬Exceeds limit kept fragment) :
    take (slotOf limit kept) fragment true limit =
      (none, .ok (some (join (kept ++ [fragment])))) := by
  have isRoom : ¬total kept + byteCount fragment > limit := fits
  unfold take Assembler.push
  rw [getD_slotOf]
  dsimp only
  rw [if_neg isRoom]
  cases kept with
  | nil =>
      rw [List.nil_append, join_singleton]
      rfl
  | cons first rest =>
      rw [join_append_singleton]
      rfl

/-! ## Runs of fragments -/

/-- The fragments that are kept after more of them came, of which none was the last one. A
fragment that is too much goes with those before it. -/
def keptAfter (limit : Nat) : List φ → List φ → List φ
  | kept, [] => kept
  | kept, fragment :: rest =>
      if Exceeds limit kept fragment then keptAfter limit [] rest
      else keptAfter limit (kept ++ [fragment]) rest

/-- How many of the fragments are too much. -/
def refusals (limit : Nat) : List φ → List φ → Nat
  | _, [] => 0
  | kept, fragment :: rest =>
      if Exceeds limit kept fragment then refusals limit [] rest + 1
      else refusals limit (kept ++ [fragment]) rest

/-- Without a refusal all fragments are kept. -/
theorem keptAfter_of_refusals_eq_zero {limit : Nat} {kept fragments : List φ}
    (none : refusals limit kept fragments = 0) :
    keptAfter limit kept fragments = kept ++ fragments := by
  induction fragments generalizing kept with
  | nil => exact (List.append_nil kept).symm
  | cons fragment rest inductionHypothesis =>
      unfold refusals at none
      unfold keptAfter
      split at none
      · cases none
      · next fits => rw [if_neg fits, inductionHypothesis none, List.append_assoc]; rfl

/-- What is kept in the end was sent in one piece, at the end. -/
theorem keptAfter_isSuffix (limit : Nat) (kept fragments : List φ) :
    keptAfter limit kept fragments <:+ kept ++ fragments := by
  induction fragments generalizing kept with
  | nil =>
      rw [List.append_nil]
      exact List.suffix_refl kept
  | cons fragment rest inductionHypothesis =>
      unfold keptAfter
      split
      · exact (inductionHypothesis []).trans
          ⟨kept ++ [fragment], by rw [List.nil_append, List.append_assoc]; rfl⟩
      · have moved := inductionHypothesis (kept ++ [fragment])
        rwa [List.append_assoc] at moved

end Inbox

end LivePage
