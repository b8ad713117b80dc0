import LivePage.Location.Address

/-!
Contract: the addresses that a server listens on.

Owns:
- an internet address with a port, its written form, and reading it from text.

Does not own: host names.
-/

namespace LivePage

/-- An internet address with a port. An IPv6 address may name the scope that it
belongs to; zero means none. -/
inductive SocketAddress where
  | v4 (numbers : List Nat) (port : Nat)
  | v6 (groups : Groups) (scope port : Nat)
deriving DecidableEq, Repr, Inhabited

namespace SocketAddress

/-- A number of decimal digits alone, leading zeros included, up to a bound. -/
def readDigits? (bound : Nat) (chars : List Char) : Option Nat :=
  if chars.all Char.isDigit then readNat? bound chars else none

def readPort? (chars : List Char) : Option Nat :=
  readDigits? 65535 chars

/-- The largest scope. -/
def greatestScope : Nat := 0xFFFFFFFF

/-- An address with an optional scope, as it stands between brackets. -/
def readScoped? (chars : List Char) : Option (Groups × Nat) := do
  match Text.cutAt? (· == '%') chars with
  | none => return (← Address.readIpv6? chars, 0)
  | some (address, scope) =>
      return (← Address.readIpv6? address, ← readDigits? greatestScope scope)

/-- Four numbers and a port, or eight groups between brackets and a port. -/
def read? (text : String) : Option SocketAddress := do
  match text.toList with
  | '[' :: rest =>
      let (address, behind) ← Text.cutAt? (· == ']') rest
      let (groups, scope) ← readScoped? address
      let port ← Text.afterWord? [':'] behind
      return .v6 groups scope (← readPort? port)
  | chars =>
      let (address, port) ← Text.cutAt? (· == ':') chars
      return .v4 (← Address.readIpv4? address) (← readPort? port)

def text : SocketAddress → String
  | .v4 numbers port => Address.ipv4Text numbers ++ ":" ++ toString port
  | .v6 groups scope port =>
      let scopeText := if scope = 0 then "" else "%" ++ toString scope
      "[" ++ Address.ipv6Display groups ++ scopeText ++ "]:" ++ toString port

end SocketAddress

end LivePage
