import LivePage.Text.Cut

/-!
Contract: the targets of HTTP requests.

Owns:
- reading a target: a path with an optional query, alone or behind a scheme and
  an authority, or an authority alone;
- what can be wrong with a target.

Does not own: the decoding of escapes in a path or a query.
-/

namespace LivePage

/-- Why a text is no target. -/
inductive TargetError where
  | empty
  | tooLong
  | invalidCharacter
  | invalidAuthority
  | invalidFormat
  | schemeTooLong
deriving DecidableEq, Repr

def TargetError.message : TargetError → String
  | .empty => "empty string"
  | .tooLong => "uri too long"
  | .invalidCharacter => "invalid uri character"
  | .invalidAuthority => "invalid authority"
  | .invalidFormat => "invalid format"
  | .schemeTooLong => "scheme too long"

/-- A path and the query behind it. A target without a path has the empty one. -/
structure Target where
  path : String
  query : Option String
deriving DecidableEq, Repr, Inhabited

namespace Target

def codeIn (low high : Nat) (char : Char) : Bool :=
  low ≤ char.toNat && char.toNat ≤ high

/-- The characters of a path. Some that ought to be escaped are let through. -/
def isPathChar (char : Char) : Bool :=
  char == '!' || codeIn 0x24 0x3B char || char == '=' || codeIn 0x40 0x5F char ||
    codeIn 0x61 0x7E char || char == '"' || 0x7F ≤ char.toNat

def isQueryChar (char : Char) : Bool :=
  char == '!' || codeIn 0x24 0x3B char || char == '=' || 0x3F ≤ char.toNat

/-- Cuts at the first character of a class; without one, nothing is behind it. -/
def before (isMark : Char → Bool) (chars : List Char) : List Char :=
  chars.takeWhile (fun char => !isMark char)

/-- The characters of an authority, apart from the percent sign. -/
def isAuthorityChar (char : Char) : Bool :=
  char.isAlphanum || "!#$&'()*+,-./:;=?@[]_~".toList.contains char

/-- What was seen of an authority so far. -/
structure AuthorityState where
  colons : Nat
  opened : Bool
  closed : Bool
  hasPercent : Bool
  /-- The last character was an at sign. -/
  endsAtSign : Bool
deriving Inhabited

/-- Takes one character of an authority. Colons and escapes in front of an at
sign or inside brackets do not count. -/
def AuthorityState.step (state : AuthorityState) (char : Char) :
    Except TargetError AuthorityState :=
  let state := { state with endsAtSign := false }
  if char = ':' then
    if state.colons ≥ 8 then .error .invalidAuthority
    else .ok { state with colons := state.colons + 1 }
  else if char = '[' then
    if state.hasPercent || state.opened then .error .invalidAuthority
    else .ok { state with opened := true }
  else if char = ']' then
    if !state.opened || state.closed then .error .invalidAuthority
    else .ok { state with closed := true, colons := 0, hasPercent := false }
  else if char = '@' then
    .ok { state with endsAtSign := true, colons := 0, hasPercent := false }
  else if char = '%' then .ok { state with hasPercent := true }
  else if isAuthorityChar char then .ok state
  else .error .invalidCharacter

/-- Whether characters make an authority. -/
def checkAuthority (chars : List Char) : Except TargetError Unit := do
  let state ← chars.foldlM AuthorityState.step ⟨0, false, false, false, false⟩
  if state.opened != state.closed || state.colons > 1 || state.endsAtSign || state.hasPercent then
    .error .invalidAuthority
  else .ok ()

/-- A path with a query; a fragment is dropped. -/
def readPath (chars : List Char) : Except TargetError Target :=
  let path := before (fun char => char == '?' || char == '#') chars
  let behind := chars.drop path.length
  if !path.all isPathChar then .error .invalidCharacter
  else
    match behind with
    | '?' :: rest =>
        let query := before (· == '#') rest
        if query.all isQueryChar then .ok ⟨String.ofList path, some (String.ofList query)⟩
        else .error .invalidCharacter
    | _ => .ok ⟨String.ofList path, none⟩

def isSchemeChar (char : Char) : Bool :=
  char.isAlphanum || char == '+' || char == '-' || char == '.'

/-- The longest scheme. -/
def schemeLimit : Nat := 64

/-- What follows a scheme and two slashes, if the target begins with them. -/
def afterScheme? (chars : List Char) : Except TargetError (Option (List Char)) :=
  let scheme := chars.takeWhile isSchemeChar
  match chars.drop scheme.length with
  | ':' :: '/' :: '/' :: rest =>
      if scheme.length > schemeLimit then .error .schemeTooLong else .ok (some rest)
  | _ => .ok none

/-- Whether a character ends an authority. -/
def endsAuthority (char : Char) : Bool :=
  char == '/' || char == '?' || char == '#'

/-- A target that does not begin with a slash. -/
def readFull (chars : List Char) : Except TargetError Target := do
  match ← afterScheme? chars with
  | none =>
      let authority := before endsAuthority chars
      checkAuthority authority
      if authority.length = chars.length then .ok ⟨"", none⟩ else .error .invalidFormat
  | some rest =>
      let authority := before endsAuthority rest
      checkAuthority authority
      if authority.isEmpty then .error .invalidFormat
      else
        let target ← readPath (rest.drop authority.length)
        .ok { target with path := if target.path.isEmpty then "/" else target.path }

/-- The longest target, in bytes. -/
def lengthLimit : Nat := 65534

def read (text : String) : Except TargetError Target :=
  if text.utf8ByteSize > lengthLimit then .error .tooLong
  else
    match text.toList with
    | [] => .error .empty
    | ['*'] => .ok ⟨"*", none⟩
    | '/' :: rest => readPath ('/' :: rest)
    | [char] => if endsAuthority char then .error .invalidCharacter else readFull [char]
    | chars => readFull chars

end Target

end LivePage
