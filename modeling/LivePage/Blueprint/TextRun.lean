import LivePage.Text.Blank
import LivePage.Text.Slice

/-!
Contract: the text between two nodes of the markup.

Owns:
- the byte offsets of the lines of a run of text that are not dropped;
- dropping of the blank lines around a run of text.

Does not own: where a run ends, and what happens to it.
-/

namespace LivePage.TextRun

/-- Byte offsets in a run of text. -/
structure Offsets where
  /-- The first character that is no blank. -/
  first : Nat
  /-- The last character that is no blank. -/
  last : Nat
  /-- The begin of the line of the first one. -/
  start : Nat
  /-- The end of the line of the last one. -/
  stop : Nat
deriving DecidableEq, Repr

/-- Where the line begins that a byte offset is in. -/
def lineStart (chars : List Char) (offset : Nat) : Nat :=
  match Text.findLast? (· == '\n') (Text.slice chars 0 offset) with
  | some newline => newline + 1
  | none => 0

/-- Where the line ends that a byte offset is in. -/
def lineStop (chars : List Char) (offset : Nat) : Nat :=
  match Text.find? (· == '\n') (Text.sliceFrom chars offset) with
  | some distance => offset + distance
  | none => Text.byteCount chars

/-- Where the lines between the blank lines at both ends are; a blank run has none. -/
def offsets? (chars : List Char) : Option Offsets :=
  match Text.find? (fun char => !Text.isBlank char) chars with
  | none => none
  | some first =>
      let last := (Text.findLast? (fun char => !Text.isBlank char) chars).getD first
      some ⟨first, last, lineStart chars first, lineStop chars last⟩

def dropEndWhile (drops : Char → Bool) (chars : List Char) : List Char :=
  (chars.reverse.dropWhile drops).reverse

/-- Drops the blank lines at both ends. The first line kept keeps its
indentation and the last one the blanks behind it, carriage returns apart. -/
def trimBlankLines (chars : List Char) : List Char :=
  match offsets? chars with
  | none => []
  | some offsets => dropEndWhile (· == '\r') (Text.slice chars offsets.start offsets.stop)

def trimmed (text : String) : String :=
  String.ofList (trimBlankLines text.toList)

end LivePage.TextRun
