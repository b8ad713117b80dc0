import LivePage.Location.Host

/-!
Contract: URLs.

Owns:
- URLs by their parts, their text, reading them, and resolution of a reference
  against a base;
- the path of a `file:` URL and the URL of an absolute path.

Does not own: whether anything exists at a URL.
-/

namespace LivePage

/-- The path of a URL: names between slashes, or text without structure. -/
inductive UrlPath where
  | names (names : List String)
  | unstructured (text : String)
deriving DecidableEq, Repr, Inhabited

structure Url where
  scheme : String
  /-- What stands in front of the host, with its mark. -/
  credentials : String
  host : Option String
  port : Option Nat
  path : UrlPath
  query : Option String
  fragment : Option String
deriving DecidableEq, Repr, Inhabited

namespace Url

def fileScheme : String := "file"

def isFile (url : Url) : Bool :=
  url.scheme == fileScheme

/-- The schemes with a host by standard, and their usual ports. -/
def defaultPorts : List (String × Nat) :=
  [("http", 80), ("https", 443), ("ws", 80), ("wss", 443), ("ftp", 21)]

def hasStandardHost (scheme : String) : Bool :=
  defaultPorts.any (fun entry => entry.1 == scheme)

/-- Schemes whose paths take a backslash for a slash. -/
def isSpecial (scheme : String) : Bool :=
  hasStandardHost scheme || scheme == fileScheme

def pathText : UrlPath → String
  | .names names => String.join (names.map ("/" ++ ·))
  | .unstructured text => text

def authorityText (url : Url) : String :=
  match url.host with
  | some host =>
      "//" ++ url.credentials ++ host ++
        (match url.port with
          | some port => ":" ++ toString port
          | none => "")
  | none =>
      if url.isFile then "//"
      else
        match url.path with
        | .names ("" :: _ :: _) => "/."
        | _ => ""

/-- The text of a URL. -/
def text (url : Url) : String :=
  url.scheme ++ ":" ++ url.authorityText ++ pathText url.path ++
    (match url.query with
      | some query => "?" ++ query
      | none => "") ++
    (match url.fragment with
      | some fragment => "#" ++ fragment
      | none => "")

/-! ### Parts of the input -/

/-- The input without controls and spaces around it and without line breaks and
tabs inside. -/
def cleaned (chars : List Char) : List Char :=
  let isEdge := fun (char : Char) => char.toNat ≤ 0x20
  let started := chars.dropWhile isEdge
  let trimmed := (started.reverse.dropWhile isEdge).reverse
  trimmed.filter (fun char => char ≠ '\t' && char ≠ '\n' && char ≠ '\r')

def isSchemeChar (char : Char) : Bool :=
  char.isAlphanum || char == '+' || char == '-' || char == '.'

/-- A scheme in lower case and what follows its colon. -/
def cutScheme? (chars : List Char) : Option (String × List Char) :=
  match chars with
  | first :: _ =>
      if first.isAlpha then
        match chars.dropWhile isSchemeChar with
        | ':' :: rest =>
            some (String.ofList ((chars.takeWhile isSchemeChar).map Char.toLower), rest)
        | _ => none
      else none
  | [] => none

/-- What follows a path: the query and the fragment. -/
structure Tail where
  query : Option String
  fragment : Option String
deriving DecidableEq, Repr

def readFragment (chars : List Char) : String :=
  Text.percentEncode Text.escapedInFragment (String.ofList chars)

/-- Query and fragment, from the mark of either on. -/
def readTail (special : Bool) (chars : List Char) : Tail :=
  match chars with
  | '?' :: rest =>
      let escaped := if special then Text.escapedInSpecialQuery else Text.escapedInQuery
      let query := Text.percentEncode escaped (String.ofList (rest.takeWhile (· ≠ '#')))
      match rest.dropWhile (· ≠ '#') with
      | _ :: fragment => ⟨some query, some (readFragment fragment)⟩
      | [] => ⟨some query, none⟩
  | '#' :: rest => ⟨none, some (readFragment rest)⟩
  | _ => ⟨none, none⟩

def isTailMark (char : Char) : Bool :=
  char == '?' || char == '#'

/-- A letter and a colon or bar, the name of a drive. -/
def isDriveName (name : List Char) : Bool :=
  match name with
  | [letter, mark] => letter.isAlpha && (mark == ':' || mark == '|')
  | _ => false

def isNormalDriveName (name : String) : Bool :=
  isDriveName name.toList && name.toList.getLast? == some ':'

/-- Whether the input begins with the name of a drive as a whole name. -/
def startsWithDrive (chars : List Char) : Bool :=
  match chars with
  | letter :: mark :: rest =>
      isDriveName [letter, mark] &&
        (match rest with
          | next :: _ => next == '/' || next == '\\' || isTailMark next
          | [] => true)
  | _ => false

def isSingleDot (name : String) : Bool :=
  Text.lowerAscii name == "." || Text.lowerAscii name == "%2e"

def isDoubleDot (name : String) : Bool :=
  [".."  , "%2e%2e", "%2e.", ".%2e"].contains (Text.lowerAscii name)

/-- Removes the last name, but not the name of a drive in front. -/
def shorten (file : Bool) (names : List String) : List String :=
  match names with
  | [only] => if file && isNormalDriveName only then names else []
  | _ => names.dropLast

/-- Appends names of a path text, resolving dots. The last name is followed by
no slash. -/
def appendNames (file : Bool) : List String → List String → List String
  | names, [] => names
  | names, name :: rest =>
      let isLast := rest.isEmpty
      let next :=
        if isDoubleDot name then
          if isLast then shorten file names ++ [""] else shorten file names
        else if isSingleDot name then
          if isLast then names ++ [""] else names
        else if file && names.isEmpty && isDriveName name.toList then
          names ++ [String.ofList (name.toList.take 1 ++ [':'])]
        else names ++ [name]
      appendNames file next rest

/-- Empty names at the front of a file's path are dropped, except a last one. -/
def dropEmptyFront : List String → List String
  | "" :: next :: rest => dropEmptyFront (next :: rest)
  | names => names

/-- The names of a path text, without its first slash. -/
def splitNames (special : Bool) (chars : List Char) : List String :=
  let unified := if special then chars.map (fun char => if char = '\\' then '/' else char) else chars
  (Text.splitAll '/' unified).map
    (fun name => Text.percentEncode Text.escapedInPath (String.ofList name))

/-- A path text appended to the names in front of it. -/
def readNames (scheme : String) (front : List String) (chars : List Char) : List String :=
  let file := scheme == fileScheme
  let names := appendNames file front (splitNames (isSpecial scheme) chars)
  if file then dropEmptyFront names else names

/-- A path text that begins with a slash, or is missing. -/
def readRootedNames (scheme : String) (chars : List Char) : List String :=
  match chars with
  | [] => if isSpecial scheme then [""] else []
  | first :: rest =>
      if first = '/' || (first = '\\' && isSpecial scheme) then readNames scheme [] rest
      else readNames scheme [] chars

/-! ### Reading -/

def isHostEnd (scheme : String) (char : Char) : Bool :=
  char == '/' || isTailMark char || (char == '\\' && isSpecial scheme)

/-- The host text up to a colon outside brackets. -/
def cutHost : Bool → List Char → List Char × List Char
  | _, [] => ([], [])
  | inside, char :: rest =>
      if char = ':' && !inside then ([], char :: rest)
      else
        let parts := cutHost (if char = '[' then true else if char = ']' then false else inside) rest
        (char :: parts.1, parts.2)

/-- A port, unless it is the usual one. -/
def readPort (scheme : String) (chars : List Char) : Except UrlError (Option Nat) :=
  if chars.isEmpty then .ok none
  else if chars.all isDigit then
    if digitsValue chars ≤ 65535 then
      if defaultPorts.contains (scheme, digitsValue chars) then .ok none
      else .ok (some (digitsValue chars))
    else .error .invalidPort
  else .error .invalidPort

/-- Cuts at the last occurrence of the mark in front of a host. -/
def cutCredentials (authority : List Char) : Option (List Char) × List Char :=
  match Text.cutAt? (· == '@') authority.reverse with
  | some (host, credentials) => (some credentials.reverse, host.reverse)
  | none => (none, authority)

/-- A URL behind the two slashes in front of its host. -/
def readAuthority (scheme : String) (chars : List Char) : Except UrlError Url := do
  let authority := chars.takeWhile (fun char => !isHostEnd scheme char)
  let rest := chars.dropWhile (fun char => !isHostEnd scheme char)
  let (credentials, hostAndPort) := cutCredentials authority
  let (hostChars, portChars) := cutHost false hostAndPort
  let host ←
    if hasStandardHost scheme then
      if hostChars.isEmpty then throw .emptyHost else Host.read hostChars
    else Host.readOpaque hostChars
  if host.isEmpty && (!portChars.isEmpty || credentials.isSome) then throw .emptyHost
  let port ← readPort scheme (portChars.drop 1)
  let tail := readTail (isSpecial scheme) (rest.dropWhile (fun char => !isTailMark char))
  let names := readRootedNames scheme (rest.takeWhile (fun char => !isTailMark char))
  let credentialText :=
    match credentials with
    | some text => if text.isEmpty then "" else String.ofList text ++ "@"
    | none => ""
  return ⟨scheme, credentialText, some host, port, .names names, tail.query, tail.fragment⟩

/-- A `file:` URL from its host, the names in front of its path, and the rest. -/
def ofFileParts (host : Option String) (front : List String) (rest : List Char) : Url :=
  let tail := readTail true (rest.dropWhile (fun char => !isTailMark char))
  let names := readNames fileScheme front (rest.takeWhile (fun char => !isTailMark char))
  ⟨fileScheme, "", host, none, .names names, tail.query, tail.fragment⟩

def isSlash (char : Char) : Bool :=
  char == '/' || char == '\\'

/-- A `file:` URL behind two slashes: a host up to the next slash, unless it is
the name of a drive. -/
def readFileHost (chars : List Char) : Except UrlError Url := do
  let hostChars := chars.takeWhile (fun char => !isHostEnd fileScheme char)
  let rest := chars.dropWhile (fun char => !isHostEnd fileScheme char)
  if isDriveName hostChars then return ofFileParts none [] chars
  let path :=
    match rest with
    | first :: more => if isSlash first then more else rest
    | [] => []
  if hostChars.isEmpty then return ofFileParts none [] path
  let host ← Host.read hostChars
  let url := ofFileParts (if host = "localhost" then none else some host) [] path
  match url.path with
  | .names (first :: _) =>
      return if isNormalDriveName first then { url with host := none } else url
  | _ => return url

def names (url : Url) : List String :=
  match url.path with
  | .names names => names
  | .unstructured _ => []

/-- A `file:` URL behind its colon, or a reference against one. -/
def readFile (base : Option Url) (chars : List Char) : Except UrlError Url :=
  match chars with
  | first :: second :: rest =>
      if isSlash first && isSlash second then readFileHost rest
      else if isSlash first then readRooted (second :: rest)
      else readRelative chars
  | [first] => if isSlash first then readRooted [] else readRelative chars
  | [] => readRelative []
where
  /-- Behind one slash: the base gives its host or its drive. -/
  readRooted (rest : List Char) : Except UrlError Url :=
    match base with
    | none => .ok (ofFileParts none [] rest)
    | some base =>
        if startsWithDrive rest then .ok (ofFileParts none [] rest)
        else
          match base.names with
          | drive :: _ =>
              if isNormalDriveName drive then .ok (ofFileParts none [drive] rest)
              else .ok (ofFileParts base.host [] rest)
          | [] => .ok (ofFileParts base.host [] rest)
  /-- Without a slash: the base gives its host and its path. -/
  readRelative (rest : List Char) : Except UrlError Url :=
    match base with
    | none => .ok (ofFileParts none [] rest)
    | some base =>
        match rest with
        | [] => .ok { base with fragment := none }
        | '?' :: _ =>
            let tail := readTail true rest
            .ok { base with query := tail.query, fragment := tail.fragment }
        | '#' :: fragment => .ok { base with fragment := some (readFragment fragment) }
        | _ =>
            if startsWithDrive rest then .ok (ofFileParts none [] rest)
            else .ok (ofFileParts base.host (shorten true base.names) rest)

/-- A URL of a scheme without standard host, behind its colon. -/
def readOther (scheme : String) (chars : List Char) : Except UrlError Url :=
  match chars with
  | '/' :: '/' :: rest => readAuthority scheme rest
  | _ =>
      let tail := readTail false (chars.dropWhile (fun char => !isTailMark char))
      let pathChars := chars.takeWhile (fun char => !isTailMark char)
      let path :=
        match pathChars with
        | '/' :: rest => UrlPath.names (readNames scheme [] rest)
        | _ => UrlPath.unstructured (Text.percentEncode Text.isControlByte (String.ofList pathChars))
      .ok ⟨scheme, "", none, none, path, tail.query, tail.fragment⟩

/-- A reference without scheme against a base that is no `file:` URL. -/
def readReference (base : Url) (chars : List Char) : Except UrlError Url :=
  let special := isSpecial base.scheme
  let slash := fun char => char == '/' || (special && char == '\\')
  match chars with
  | [] => .ok { base with fragment := none }
  | '?' :: _ =>
      let tail := readTail special chars
      .ok { base with query := tail.query, fragment := tail.fragment }
  | first :: rest =>
      if slash first && (rest.head?.map slash).getD false then
        readAuthority base.scheme (if special then rest.dropWhile slash else rest.drop 1)
      else
        let tail := readTail special (chars.dropWhile (fun char => !isTailMark char))
        let pathChars := chars.takeWhile (fun char => !isTailMark char)
        let names :=
          if slash first then readNames base.scheme [] (pathChars.drop 1)
          else readNames base.scheme (base.names.dropLast) pathChars
        .ok { base with path := .names names, query := tail.query, fragment := tail.fragment }

/-- Reads a cleaned input, with a base for references. -/
def readCleaned (base : Option Url) (chars : List Char) : Except UrlError Url :=
  match cutScheme? chars with
  | some (scheme, rest) =>
      if scheme = fileScheme then
        readFile (base.bind (fun url => if url.isFile then some url else none)) rest
      else if hasStandardHost scheme then
        let slashes := (rest.takeWhile isSlash).length
        match base with
        | some url =>
            if slashes < 2 ∧ url.scheme = scheme then readReference url rest
            else readAuthority scheme (rest.dropWhile isSlash)
        | none => readAuthority scheme (rest.dropWhile isSlash)
      else readOther scheme rest
  | none =>
      match base with
      | none => .error .relativeWithoutBase
      | some url =>
          match chars with
          | '#' :: fragment => .ok { url with fragment := some (readFragment fragment) }
          | _ =>
              match url.path with
              | .unstructured _ => .error .relativeToOpaque
              | .names _ =>
                  if url.isFile then readFile (some url) chars else readReference url chars

/-- The URL of a text. -/
def parse (text : String) : Except UrlError Url :=
  readCleaned none (cleaned text.toList)

/-- The URL of a reference against a base. -/
def join (base : Url) (reference : String) : Except UrlError Url :=
  readCleaned (some base) (cleaned reference.toList)

/-! ### Files -/

/-- The text of an absolute path as a `file:` URL names it; none for a URL with
a foreign host or without names. -/
def filePath? (url : Url) : Option String :=
  match url.path with
  | .unstructured _ => none
  | .names names =>
      if url.host.isSome && url.host ≠ some "localhost" then none
      else
        let encoded := String.join (names.map ("/" ++ ·))
        let decoded := Text.percentDecodeBytes (Text.encodeUtf8 encoded)
        let text := (Text.decodeUtf8? decoded).getD (encoded ++ "\uFFFD")
        let ending := text.toList.reverse.take 2
        let endsInDrive :=
          match ending with
          | [mark, letter] => isDriveName [letter, mark] && text.length > 2
          | _ => false
        some (if endsInDrive then text ++ "/" else text)

/-- The URL of an absolute path, given by its names. -/
def ofFilePath (names : List String) : Url :=
  let encoded := names.map (Text.percentEncode Text.escapedInFileName)
  ⟨fileScheme, "", none, none, .names (if encoded.isEmpty then [""] else encoded), none, none⟩

end Url

end LivePage
