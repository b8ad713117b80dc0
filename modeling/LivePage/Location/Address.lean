import LivePage.Number.Text
import LivePage.Text.Bytes
import LivePage.Text.Cut

/-!
Contract: internet addresses.

Owns:
- IPv4 and IPv6 addresses, their written form, and reading them from text.

Does not own: host names and ports.
-/

namespace LivePage

/-- An IPv6 address as eight groups of sixteen bits. -/
abbrev Groups := List Nat

namespace Address

/-- Four numbers of at most `255` without leading zeros, separated by dots. -/
def readIpv4? (chars : List Char) : Option (List Nat) :=
  let parts := Text.splitAll '.' chars
  let readPart? (part : List Char) : Option Nat :=
    if part.length > 3 || (part.length > 1 && part.head? = some '0') || part.head? = some '+'
    then none
    else readNat? 255 part
  if parts.length = 4 then parts.mapM readPart? else none

def ipv4Text (numbers : List Nat) : String :=
  Text.joinWith "." (numbers.map toString)

/-- One to four hexadecimal digits. -/
def readGroup? (chars : List Char) : Option Nat :=
  if chars.isEmpty || chars.length > 4 then none
  else
    chars.foldl
      (fun value char => value.bind (fun high => (Text.hexValue? char).map (16 * high + ·)))
      (some 0)

/-- Groups separated by colons; the last may be an IPv4 address, which makes
two groups. -/
def readGroups? (chars : List Char) : Option Groups :=
  if chars.isEmpty then some []
  else
    let parts := Text.splitAll ':' chars
    let front := parts.dropLast
    match front.mapM readGroup?, parts.getLast? with
    | some groups, some last =>
        match readGroup? last with
        | some group => some (groups ++ [group])
        | none =>
            match readIpv4? last with
            | some [a, b, c, d] => some (groups ++ [256 * a + b, 256 * c + d])
            | _ => none
    | _, _ => none

/-- Eight groups; a double colon stands for one or more groups of zero. -/
def readIpv6? (chars : List Char) : Option Groups :=
  match Text.cutAtWord? "::".toList chars with
  | none =>
      match readGroups? chars with
      | some groups => if groups.length = 8 then some groups else none
      | none => none
  | some (front, back) =>
      let frontPlain := front.all (· ≠ '.')
      match readGroups? front, readGroups? back with
      | some before, some after =>
          if frontPlain && before.length + after.length ≤ 7 then
            some (before ++ List.replicate (8 - before.length - after.length) 0 ++ after)
          else none
      | _, _ => none

/-- The length of the run of zeros at the front. -/
def zeroRun (groups : Groups) : Nat :=
  (groups.takeWhile (· == 0)).length

/-- The start and length of the longest run of zeros, the first of those. -/
def longestZeroRun : Nat → Groups → Nat × Nat
  | _, [] => (0, 0)
  | start, group :: rest =>
      let here := zeroRun (group :: rest)
      let later := longestZeroRun (start + 1) rest
      if later.2 > here then later else (start, here)

def groupsText (groups : Groups) : String :=
  Text.joinWith ":" (groups.map Text.hexNumber)

/-- Groups in lower case digits, with a double colon for the longest run of at
least two zeros. -/
def ipv6Text (groups : Groups) : String :=
  let (start, length) := longestZeroRun 0 groups
  if length > 1 then
    groupsText (groups.take start) ++ "::" ++ groupsText (groups.drop (start + length))
  else groupsText groups

/-- The form that shows an IPv4 address carried by an IPv6 address as such. -/
def ipv6Display (groups : Groups) : String :=
  match groups with
  | [0, 0, 0, 0, 0, 0xFFFF, high, low] =>
      "::ffff:" ++ ipv4Text [high / 256, high % 256, low / 256, low % 256]
  | _ => ipv6Text groups

end Address

end LivePage
