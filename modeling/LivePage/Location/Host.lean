import LivePage.Location.Address
import LivePage.Text.Percent

/-!
Contract: hosts inside URLs.

Owns:
- what a host's text stands for, in its serialized form;
- the faults of URLs and their wording.

Does not own: the other parts of a URL.
-/

namespace LivePage

/-- Why a text is no URL. -/
inductive UrlError where
  | emptyHost
  | invalidIpv6
  | invalidIpv4
  | invalidPort
  | invalidDomain
  | invalidDomainCharacter
  | relativeWithoutBase
  | relativeToOpaque
deriving DecidableEq, Repr

def UrlError.message : UrlError → String
  | .emptyHost => "empty host"
  | .invalidIpv6 => "invalid IPv6 address"
  | .invalidIpv4 => "invalid IPv4 address"
  | .invalidPort => "invalid port number"
  | .invalidDomain => "invalid international domain name"
  | .invalidDomainCharacter => "invalid domain character"
  | .relativeWithoutBase => "relative URL without a base"
  | .relativeToOpaque => "relative URL with a cannot-be-a-base base"

namespace Host

/-- Characters that no domain holds. -/
def isForbidden (char : Char) : Bool :=
  char.toNat ≤ 0x20 || char.toNat == 0x7F || "%#/:<>?@[\\]^|".toList.contains char

/-- Characters that no host of a scheme without standard hosts holds. -/
def isForbiddenOpaque (char : Char) : Bool :=
  char.toNat == 0 || "\t\n\r #/:<>?@[\\]^|".toList.contains char

/-- A number as part of an IPv4 address: the value of decimal, octal or
hexadecimal digits, or none when it is too large. -/
def readPart (part : List Char) : Except UrlError (Option Nat) :=
  let (radix, digits) :=
    match part with
    | '0' :: 'x' :: rest => (16, rest)
    | '0' :: 'X' :: rest => (16, rest)
    | '0' :: second :: rest => (8, second :: rest)
    | _ => (10, part)
  if part.isEmpty then .error .invalidIpv4
  else
    let value := digits.foldl
      (fun value char => value.bind (fun high =>
        (Text.hexValue? char).bind (fun digit =>
          if digit < radix then some (radix * high + digit) else none)))
      (some 0)
    match value with
    | none => .error .invalidIpv4
    | some number => .ok (if number < 0x100000000 then some number else none)

/-- Whether the last label of a domain is a number, which makes the domain an
IPv4 address. -/
def endsInNumber (domain : List Char) : Bool :=
  let labels := (Text.splitAll '.' domain).reverse
  let last :=
    match labels with
    | [] :: next :: _ => next
    | first :: _ => first
    | [] => []
  if last.isEmpty then false
  else last.all isDigit || (readPart last).toOption.isSome

def readIpv4 (domain : List Char) : Except UrlError String := do
  let parts := Text.splitAll '.' domain
  let parts := if parts.getLast? = some [] then parts.dropLast else parts
  if parts.length > 4 then throw .invalidIpv4
  let values ← parts.mapM readPart
  let numbers := values.filterMap id
  if numbers.length < values.length then throw .invalidIpv4
  let front := numbers.dropLast
  let last := numbers.getLast?.getD 0
  if last ≥ Nat.pow 256 (4 - front.length) then throw .invalidIpv4
  if front.any (· > 255) then throw .invalidIpv4
  let high := front.zipIdx.foldl (fun sum part => sum + part.1 * Nat.pow 256 (3 - part.2)) 0
  let address := high + last
  return Address.ipv4Text
    [address / 0x1000000, address / 0x10000 % 256, address / 0x100 % 256, address % 256]

/-- A host between brackets. -/
def readBracketed (chars : List Char) : Except UrlError String :=
  if chars.getLast? = some ']' then
    match Address.readIpv6? ((chars.drop 1).dropLast) with
    | some groups => .ok ("[" ++ Address.ipv6Text groups ++ "]")
    | none => .error .invalidIpv6
  else .error .invalidIpv6

/-- A label that announces an encoded form has to carry one. -/
def isBareEncodedLabel (label : List Char) : Bool :=
  label = "xn--".toList

/-- The host of a scheme with hosts by standard: an address or a domain, in
lower case and with its escapes decoded. -/
def read (chars : List Char) : Except UrlError String := do
  if chars.head? = some '[' then readBracketed chars
  else
    match Text.percentDecode? (String.ofList chars) with
    | none => throw .invalidDomain
    | some decoded =>
        let domain := decoded.toList.map Char.toLower
        if domain.any isForbidden then throw .invalidDomain
        if (Text.splitAll '.' domain).any isBareEncodedLabel then throw .invalidDomain
        if domain.isEmpty then throw .emptyHost
        if endsInNumber domain then readIpv4 domain
        else return String.ofList domain

/-- The host of any other scheme. -/
def readOpaque (chars : List Char) : Except UrlError String :=
  if chars.head? = some '[' then readBracketed chars
  else if chars.any isForbiddenOpaque then .error .invalidDomainCharacter
  else .ok (Text.percentEncode Text.isControlByte (String.ofList chars))

end Host

end LivePage
