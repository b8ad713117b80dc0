import LivePage.Text.Bytes
import LivePage.Text.Cut

/-!
Contract: places in text by byte offsets.

Owns:
- the byte offsets of the first and of the last character of a class;
- the characters from one byte offset up to another, and when the offsets cut none apart.

Does not own: lines, and what is looked for.
-/

namespace LivePage.Text

/-- The byte offset of the first character of a class. -/
def find? (isMark : Char → Bool) (chars : List Char) : Option Nat :=
  (cutAt? isMark chars).map (fun parts => byteCount parts.1)

/-- The byte offset of the last character of a class. -/
def findLast? (isMark : Char → Bool) (chars : List Char) : Option Nat :=
  (cutAt? isMark chars.reverse).map (fun parts => byteCount parts.2)

/-- The characters that fit into so many bytes. -/
def takeBytes (count : Nat) : List Char → List Char
  | [] => []
  | char :: rest =>
      if char.utf8Size ≤ count then char :: takeBytes (count - char.utf8Size) rest else []

/-- The characters behind those that fit into so many bytes. -/
def dropBytes (count : Nat) : List Char → List Char
  | [] => []
  | char :: rest =>
      if char.utf8Size ≤ count then dropBytes (count - char.utf8Size) rest else char :: rest

/-- The characters from one byte offset up to another. -/
def slice (chars : List Char) (start stop : Nat) : List Char :=
  takeBytes (stop - start) (dropBytes start chars)

/-- The characters from a byte offset on. -/
def sliceFrom (chars : List Char) (start : Nat) : List Char :=
  slice chars start (byteCount chars)

/-- Byte offsets in order, each of which stands between two characters or at an end. Only such
offsets bound a slice. -/
structure InBounds (chars : List Char) (start stop : Nat) : Prop where
  ordered : start ≤ stop
  startFits : String.Pos.Raw.IsValid (String.ofList chars) ⟨start⟩
  stopFits : String.Pos.Raw.IsValid (String.ofList chars) ⟨stop⟩

theorem takeBytes_sublist (count : Nat) (chars : List Char) :
    (takeBytes count chars).Sublist chars := by
  induction chars generalizing count with
  | nil => exact .slnil
  | cons char rest inductionHypothesis =>
      unfold takeBytes
      split
      · exact (inductionHypothesis _).cons_cons char
      · exact List.nil_sublist _

theorem dropBytes_sublist (count : Nat) (chars : List Char) :
    (dropBytes count chars).Sublist chars := by
  induction chars generalizing count with
  | nil => exact .slnil
  | cons char rest inductionHypothesis =>
      unfold dropBytes
      split
      · exact (inductionHypothesis _).cons char
      · exact List.Sublist.refl _

theorem slice_sublist (chars : List Char) (start stop : Nat) :
    (slice chars start stop).Sublist chars :=
  (takeBytes_sublist _ _).trans (dropBytes_sublist _ _)

end LivePage.Text
