import LivePage.Proofs.Wire.Reassembly

/-!
Contract: text and binary messages whose fragments come in any order of the two kinds.

Owns:
- reassembly of one kind without a slot, from the fragments kept since the last boundary;
- what an inbox makes of fragments of both kinds: each kind fares as if it were alone;
- messages within the limit come out whole, and nothing comes out beside them.

Does not own: what is done with a whole message, and with a refusal.
-/

namespace LivePage

namespace Inbox

open Payload

/-- What comes of a fragment: a refusal, nothing yet, or a whole message. -/
abbrev Outcome (φ : Type) := Except WireError (Option φ)

section OneKind

variable {φ : Type} [Payload φ]

/-! ## Fragments of one kind -/

/-- Takes the next fragment beside the kept ones. Nothing is kept beyond a boundary, which is
a whole message or a refusal. -/
def accept (limit : Nat) (kept : List φ) (fragment : φ) (isLast : Bool) : List φ × Outcome φ :=
  if Exceeds limit kept fragment then ([], .error (.messageTooLarge limit))
  else if isLast then ([], .ok (some (join (kept ++ [fragment]))))
  else (kept ++ [fragment], .ok none)

/-- What comes of fragments, each with whether it is the last one of its message. -/
def outcomes (limit : Nat) : List φ → List (φ × Bool) → List (Outcome φ)
  | _, [] => []
  | kept, (fragment, isLast) :: rest =>
      (accept limit kept fragment isLast).2 ::
        outcomes limit (accept limit kept fragment isLast).1 rest

/-- The fragments that are kept in the end. -/
def keptSince (limit : Nat) : List φ → List (φ × Bool) → List φ
  | kept, [] => kept
  | kept, (fragment, isLast) :: rest =>
      keptSince limit (accept limit kept fragment isLast).1 rest

/-- The fragments of a message, the last one marked as such. -/
def pieces (earlier : List φ) (last : φ) : List (φ × Bool) :=
  earlier.map (fun fragment => (fragment, false)) ++ [(last, true)]

/-- A whole message comes of the last fragment, and nothing of the others. -/
def wholeAtLast (earlier : List φ) (last : φ) : List (Outcome φ) :=
  List.replicate earlier.length (.ok none) ++ [.ok (some (join (earlier ++ [last])))]

/-- Every message within the limit that begins at a boundary comes out whole; what comes of
the fragments in front of it and behind it has nothing to do with it. -/
def DeliversWhole (limit : Nat) (fragments : List (φ × Bool)) (results : List (Outcome φ)) : Prop :=
  ∀ before earlier last after, fragments = before ++ pieces earlier last ++ after →
    keptSince limit [] before = [] → byteCount (join (earlier ++ [last])) ≤ limit →
    results = outcomes limit [] before ++ wholeAtLast earlier last ++ outcomes limit [] after

theorem outcomes_append (limit : Nat) (kept : List φ) (before after : List (φ × Bool)) :
    outcomes limit kept (before ++ after) =
      outcomes limit kept before ++ outcomes limit (keptSince limit kept before) after := by
  induction before generalizing kept with
  | nil => rfl
  | cons piece rest inductionHypothesis =>
      rw [List.cons_append, outcomes, outcomes, inductionHypothesis, List.cons_append]
      rfl

theorem keptSince_append (limit : Nat) (kept : List φ) (before after : List (φ × Bool)) :
    keptSince limit kept (before ++ after) =
      keptSince limit (keptSince limit kept before) after := by
  induction before generalizing kept with
  | nil => rfl
  | cons piece rest inductionHypothesis => exact inductionHypothesis _

variable [LawfulPayload φ]

/-- The slot of kept fragments becomes the slot of those kept next. -/
theorem take_slotOf (limit : Nat) (kept : List φ) (fragment : φ) (isLast : Bool) :
    take (slotOf limit kept) fragment isLast limit =
      (slotOf limit (accept limit kept fragment isLast).1,
        (accept limit kept fragment isLast).2) := by
  unfold accept
  by_cases exceeds : Exceeds limit kept fragment
  · rw [take_of_exceeds exceeds, if_pos exceeds]
    rfl
  · rw [if_neg exceeds]
    cases isLast with
    | false => exact take_unfinished exceeds
    | true => exact take_last exceeds

/-- A message that fits beside the kept fragments is put together with them. -/
theorem outcomes_pieces {limit : Nat} {kept earlier : List φ} {last : φ}
    (fits : total kept + byteCount (join (earlier ++ [last])) ≤ limit) :
    outcomes limit kept (pieces earlier last) =
        List.replicate earlier.length (.ok none) ++
          [.ok (some (join (kept ++ (earlier ++ [last]))))] ∧
      keptSince limit kept (pieces earlier last) = [] := by
  rw [byteCount_join] at fits
  induction earlier generalizing kept with
  | nil =>
      have room : ¬Exceeds limit kept last := by
        unfold Exceeds
        simp only [List.nil_append, total] at fits
        omega
      have accepted : accept limit kept last true = ([], .ok (some (join (kept ++ [last])))) := by
        rw [accept, if_neg room, if_pos rfl]
      simp only [pieces, List.map_nil, List.nil_append, outcomes, keptSince, accepted,
        List.length_nil, List.replicate_zero, and_self]
  | cons fragment rest inductionHypothesis =>
      simp only [List.cons_append, total] at fits
      have room : ¬Exceeds limit kept fragment := by
        unfold Exceeds
        omega
      have accepted : accept limit kept fragment false = (kept ++ [fragment], .ok none) := by
        rw [accept, if_neg room, if_neg Bool.false_ne_true]
      have restFits : total (kept ++ [fragment]) + total (rest ++ [last]) ≤ limit := by
        rw [total_append_singleton]
        omega
      obtain ⟨results, nothingKept⟩ := inductionHypothesis restFits
      have isCons : pieces (fragment :: rest) last = (fragment, false) :: pieces rest last := rfl
      rw [isCons, outcomes, keptSince, accepted]
      refine ⟨?_, nothingKept⟩
      rw [results, List.append_assoc]
      rfl

theorem deliversWhole_outcomes (limit : Nat) (fragments : List (φ × Bool)) :
    DeliversWhole limit fragments (outcomes limit [] fragments) := by
  rintro before earlier last after rfl atBoundary fits
  have room : total ([] : List φ) + byteCount (join (earlier ++ [last])) ≤ limit := by
    rwa [total, Nat.zero_add]
  obtain ⟨results, nothingKept⟩ := outcomes_pieces room
  rw [outcomes_append, outcomes_append, keptSince_append, atBoundary, results, nothingKept]
  rfl

end OneKind

/-! ## Both kinds -/

/-- A fragment that comes in, with whether it is the last one of its message. -/
inductive Arrival where
  | text (fragment : String) (isLast : Bool)
  | binary (fragment : List UInt8) (isLast : Bool)

/-- What comes of a fragment of either kind. -/
inductive Result where
  | text (outcome : Outcome String)
  | binary (outcome : Outcome (List UInt8))

namespace Arrival

def text? : Arrival → Option (String × Bool)
  | .text fragment isLast => some (fragment, isLast)
  | .binary _ _ => none

def binary? : Arrival → Option (List UInt8 × Bool)
  | .text _ _ => none
  | .binary fragment isLast => some (fragment, isLast)

end Arrival

namespace Result

def text? : Result → Option (Outcome String)
  | .text outcome => some outcome
  | .binary _ => none

def binary? : Result → Option (Outcome (List UInt8))
  | .text _ => none
  | .binary outcome => some outcome

end Result

def push (inbox : Inbox) (limit : Nat) : Arrival → Inbox × Result
  | .text fragment isLast =>
      let (next, outcome) := inbox.pushText fragment isLast limit
      (next, .text outcome)
  | .binary fragment isLast =>
      let (next, outcome) := inbox.pushBinary fragment isLast limit
      (next, .binary outcome)

/-- Takes fragments one after another. -/
def pushAll (limit : Nat) : Inbox → List Arrival → Inbox × List Result
  | inbox, [] => (inbox, [])
  | inbox, arrival :: rest =>
      let (next, result) := inbox.push limit arrival
      let (last, results) := pushAll limit next rest
      (last, result :: results)

/-- The inbox in which fragments of both kinds are kept. -/
def keeping (limit : Nat) (texts : List String) (binaries : List (List UInt8)) : Inbox :=
  ⟨slotOf limit texts, slotOf limit binaries⟩

/-- A text fragment changes the kept text fragments only. -/
theorem push_text (limit : Nat) (texts : List String) (binaries : List (List UInt8))
    (fragment : String) (isLast : Bool) :
    (keeping limit texts binaries).push limit (.text fragment isLast) =
      (keeping limit (accept limit texts fragment isLast).1 binaries,
        .text (accept limit texts fragment isLast).2) := by
  have taken := take_slotOf limit texts fragment isLast
  simp only [push, pushText, keeping, taken]

theorem push_binary (limit : Nat) (texts : List String) (binaries : List (List UInt8))
    (fragment : List UInt8) (isLast : Bool) :
    (keeping limit texts binaries).push limit (.binary fragment isLast) =
      (keeping limit texts (accept limit binaries fragment isLast).1,
        .binary (accept limit binaries fragment isLast).2) := by
  have taken := take_slotOf limit binaries fragment isLast
  simp only [push, pushBinary, keeping, taken]

/-- From whatever is kept, each kind fares as if it were alone. -/
theorem pushAll_keeping (limit : Nat) (texts : List String) (binaries : List (List UInt8))
    (arrivals : List Arrival) :
    let run := (keeping limit texts binaries).pushAll limit arrivals
    run.1 = keeping limit (keptSince limit texts (arrivals.filterMap Arrival.text?))
        (keptSince limit binaries (arrivals.filterMap Arrival.binary?)) ∧
      run.2.filterMap Result.text? = outcomes limit texts (arrivals.filterMap Arrival.text?) ∧
      run.2.filterMap Result.binary? =
        outcomes limit binaries (arrivals.filterMap Arrival.binary?) := by
  induction arrivals generalizing texts binaries with
  | nil => exact ⟨rfl, rfl, rfl⟩
  | cons arrival rest inductionHypothesis =>
      cases arrival with
      | text fragment isLast =>
          obtain ⟨last, ofText, ofBinary⟩ :=
            inductionHypothesis (accept limit texts fragment isLast).1 binaries
          rw [pushAll, push_text]
          exact ⟨last, congrArg _ ofText, ofBinary⟩
      | binary fragment isLast =>
          obtain ⟨last, ofText, ofBinary⟩ :=
            inductionHypothesis texts (accept limit binaries fragment isLast).1
          rw [pushAll, push_binary]
          exact ⟨last, ofText, congrArg _ ofBinary⟩

theorem isPending_keeping (limit : Nat) (texts : List String) (binaries : List (List UInt8)) :
    (keeping limit texts binaries).isPending = true ↔ texts ≠ [] ∨ binaries ≠ [] := by
  cases texts <;> cases binaries <;> simp [keeping, slotOf, isPending]

/-- Fragments of both kinds in any order: what comes of those of a kind is what comes of
them alone, every message within the limit comes out whole, and something is pending exactly
while fragments of some kind are kept. -/
theorem kinds_are_reassembled_apart (limit : Nat) (arrivals : List Arrival) :
    let texts := arrivals.filterMap Arrival.text?
    let binaries := arrivals.filterMap Arrival.binary?
    let run := Inbox.empty.pushAll limit arrivals
    let textResults := run.2.filterMap Result.text?
    let binaryResults := run.2.filterMap Result.binary?
    textResults = outcomes limit [] texts ∧
      binaryResults = outcomes limit [] binaries ∧
      DeliversWhole limit texts textResults ∧
      DeliversWhole limit binaries binaryResults ∧
      (run.1.isPending = true ↔
        keptSince limit [] texts ≠ [] ∨ keptSince limit [] binaries ≠ []) := by
  intro texts binaries run textResults binaryResults
  obtain ⟨last, ofText, ofBinary⟩ := pushAll_keeping limit [] [] arrivals
  refine ⟨ofText, ofBinary, ?_, ?_, ?_⟩
  · rw [show textResults = outcomes limit [] texts from ofText]
    exact deliversWhole_outcomes limit texts
  · rw [show binaryResults = outcomes limit [] binaries from ofBinary]
    exact deliversWhole_outcomes limit binaries
  · rw [show run.1 = _ from last]
    exact isPending_keeping limit _ _

/-- A text in three fragments, one of them empty, around a whole binary message. -/
example : ((Inbox.empty.pushAll 4 [.text "ab" false, .binary [1, 2] true, .text "" false,
    .text "cd" true]).2.filterMap Result.text?).map Except.toOption =
    [some none, some none, some (some "abcd")] := by
  decide +kernel

end Inbox

end LivePage
