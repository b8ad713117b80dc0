import LivePage.Dict
import LivePage.Markup.Entity
import LivePage.Text.Blank
import LivePage.Text.Slice

/-!
Contract: the data of a processing instruction as named values.

Owns:
- reading items of the form `name="value"`, and what can be wrong with one.

Does not own: which names an instruction needs.
-/

namespace LivePage

/-- Why the data of an instruction holds no named values. -/
inductive PseudoAttributeFault where
  | noEquals (rest : String)
  | malformedName (name : String)
  | unquoted (name : String)
  | unterminated (name : String)
  | entity (reason : Markup.EntityFault)
deriving DecidableEq, Repr

def PseudoAttributeFault.message : PseudoAttributeFault → String
  | .noEquals rest => "expected `name=\"value\"` in `" ++ rest ++ "`"
  | .malformedName name => "malformed attribute name `" ++ name ++ "`"
  | .unquoted name => "value of `" ++ name ++ "` must be quoted"
  | .unterminated name => "unterminated value for `" ++ name ++ "`"
  | .entity reason => reason.message

/-- A named value. -/
structure PseudoAttribute where
  name : String
  value : String
deriving DecidableEq, Repr

namespace PseudoAttribute

def isQuote (char : Char) : Bool :=
  char == '"' || char == '\''

/-- The quoted text at the front, and the rest behind its closing quote. -/
def readQuoted (name : String) (chars : List Char) :
    Except PseudoAttributeFault (List Char × List Char) :=
  match chars.head? with
  | none => .error (.unquoted name)
  | some quote =>
      if isQuote quote then
        let body := Text.sliceFrom chars 1
        match Text.find? (· == quote) body with
        | none => .error (.unterminated name)
        | some close => .ok (Text.slice body 0 close, Text.sliceFrom body (close + 1))
      else .error (.unquoted name)

/-- The first item, and the rest behind it. -/
def readItem (chars : List Char) : Except PseudoAttributeFault (PseudoAttribute × List Char) :=
  match Text.cutAt? (· == '=') chars with
  | none => .error (.noEquals (String.ofList chars))
  | some (spelling, after) =>
      let nameChars := Text.trim spelling
      let name := String.ofList nameChars
      if nameChars.isEmpty || nameChars.any Text.isBlank then .error (.malformedName name)
      else
        match readQuoted name (Text.trimStart after) with
        | .error fault => .error fault
        | .ok (body, rest) =>
            match Markup.unescape body with
            | .error reason => .error (.entity reason)
            | .ok value => .ok (⟨name, String.ofList value⟩, rest)

theorem length_trimStart_le (chars : List Char) :
    (Text.trimStart chars).length ≤ chars.length :=
  (List.dropWhile_sublist _).length_le

/-- A quote is a single byte. -/
theorem utf8Size_of_isQuote {quote : Char} (quotes : isQuote quote = true) :
    quote.utf8Size = 1 := by
  rw [isQuote, Bool.or_eq_true, beq_iff_eq, beq_iff_eq] at quotes
  rcases quotes with rfl | rfl <;> rfl

theorem readQuoted_length {name : String} {chars body rest : List Char}
    (found : readQuoted name chars = .ok (body, rest)) : rest.length < chars.length := by
  unfold readQuoted at found
  cases chars with
  | nil => simp at found
  | cons quote tail =>
      simp only [List.head?_cons] at found
      split at found
      · next quotes =>
          split at found
          · simp at found
          · next close _ =>
              simp only [Except.ok.injEq, Prod.mk.injEq] at found
              -- The quote itself is behind the offset that the slice starts at.
              have behind : (Text.sliceFrom (quote :: tail) 1).Sublist tail := by
                have fits : Text.dropBytes 1 (quote :: tail) = Text.dropBytes 0 tail := by
                  rw [Text.dropBytes, utf8Size_of_isQuote quotes, if_pos (Nat.le_refl 1)]
                refine (Text.takeBytes_sublist _ _).trans ?_
                rw [fits]
                exact Text.dropBytes_sublist 0 tail
              rw [← found.2]
              exact Nat.lt_succ_of_le ((Text.slice_sublist _ _ _).trans behind).length_le
      · simp at found

/-- Reading an item leaves less to read. -/
theorem readItem_length {chars rest : List Char} {item : PseudoAttribute}
    (found : readItem chars = .ok (item, rest)) : rest.length < chars.length := by
  unfold readItem at found
  split at found
  · simp at found
  · rename_i spelling after cut
    obtain ⟨mark, _, equal, _⟩ := Text.cutAt?_eq_some cut
    simp only at found
    split at found
    · simp at found
    · split at found
      · simp at found
      · rename_i body remaining quoted
        split at found
        · simp at found
        · simp only [Except.ok.injEq, Prod.mk.injEq] at found
          have shorter := readQuoted_length quoted
          have trimmed := length_trimStart_le after
          rw [← found.2]
          simp [equal]
          omega

/-- The items of the data, in their order. -/
def readAll (chars : List Char) : Except PseudoAttributeFault (List PseudoAttribute) :=
  let trimmed := Text.trimStart chars
  if trimmed.isEmpty then .ok []
  else
    match _found : readItem trimmed with
    | .error fault => .error fault
    | .ok (item, rest) =>
        match readAll rest with
        | .error fault => .error fault
        | .ok items => .ok (item :: items)
termination_by chars.length
decreasing_by
  exact Nat.lt_of_lt_of_le (readItem_length _found) (length_trimStart_le chars)

/-- The values by name; the last item of a name counts. -/
def read (data : String) : Except PseudoAttributeFault (Dict String) :=
  match readAll data.toList with
  | .error fault => .error fault
  | .ok items => .ok (Dict.ofList (items.map (fun item => (item.name, item.value))))

end PseudoAttribute

end LivePage
