import LivePage.Location.FileSystem
import LivePage.Location.Url
import LivePage.Markup.Document
import LivePage.Text.Blank

/-!
Contract: where pages are and what they hold.

Owns:
- the errors of finding and reading a page;
- keys under a web root, their normal form as URLs, and references between pages;
- page sources.

Does not own: what a page's markup means.
-/

namespace LivePage

/-- Why a page's text cannot be had. -/
inductive SourceError where
  | notFound (key : String)
  | invalidLocation (key reason : String)
  | outsideRoot (key : String)
  | unsupportedScheme (scheme : String)
  | unreadable (reason : FileError)
  | malformed (malformed : Markup.Malformed)
deriving DecidableEq, Repr

def SourceError.message : SourceError → String
  | .notFound key => "page resource not found: " ++ key
  | .invalidLocation key reason => "invalid resource location `" ++ key ++ "`: " ++ reason
  | .outsideRoot key => "resource `" ++ key ++ "` resolves outside the web root"
  | .unsupportedScheme scheme => "unsupported resource scheme `" ++ scheme ++ "`"
  | .unreadable reason => "failed to read page source: " ++ reason.message
  | .malformed reason => reason.message

/-- Finds pages below a directory. -/
structure Locator where
  /-- The link-free path of the directory. -/
  root : Path
deriving DecidableEq, Repr, Inhabited

namespace Locator

/-- The locator of the directory at a path text. -/
def new (files : FileSystem) (webRoot : String) : Except SourceError Locator :=
  match files.canonicalize webRoot with
  | .ok root => .ok ⟨root⟩
  | .error reason => .error (.invalidLocation webRoot reason.message)

/-- The URL of the file at a path text, which has to lie below the root. -/
def contain (locator : Locator) (files : FileSystem) (key path : String) :
    Except SourceError Url :=
  match files.canonicalize path with
  | .error _ => .error (.notFound key)
  | .ok canonical =>
      if !Path.isWithin canonical locator.root then .error (.outsideRoot key)
      else if !files.isFile canonical then .error (.notFound key)
      else .ok (Url.ofFilePath canonical)

/-- The path text of a `file:` URL. -/
def filePath (url : Url) : Except SourceError String :=
  if !url.isFile then .error (.unsupportedScheme url.scheme)
  else
    match url.filePath? with
    | some path => .ok path
    | none => .error (.invalidLocation url.text "not a local file path")

/-- The path text of a key relative to the root. -/
def below (locator : Locator) (key : String) : String :=
  Path.text locator.root ++ "/" ++ String.ofList (key.toList.dropWhile (· == '/'))

/-- The URL of the existing page that a key names: a `file:` URL, or a path
below the root. -/
def normalize (locator : Locator) (files : FileSystem) (key : String) :
    Except SourceError Url :=
  let trimmed := Text.trimText key
  if trimmed.isEmpty then .error (.invalidLocation trimmed "empty resource key")
  else
    match Url.parse trimmed with
    | .ok url =>
        match filePath url with
        | .ok path => locator.contain files trimmed path
        | .error error => .error error
    | .error .relativeWithoutBase => locator.contain files trimmed (locator.below trimmed)
    | .error reason => .error (.invalidLocation trimmed reason.message)

/-- The URL of a reference from a page. A reference that begins with a slash,
or has no base, is a key. -/
def resolve (locator : Locator) (files : FileSystem) (base : Option Url) (reference : String) :
    Except SourceError Url :=
  match base with
  | some url =>
      if reference.toList.head? = some '/' then locator.normalize files reference
      else
        match url.join reference with
        | .ok joined => locator.normalize files joined.text
        | .error reason => .error (.invalidLocation reference reason.message)
  | none => locator.normalize files reference

def isStep (part : String) : Bool :=
  part ≠ "" && part ≠ "."

/-- What follows the names of a directory in the parts of a path. -/
def partsBelow? : Path → List String → Option (List String)
  | [], parts => some parts
  | _ :: _, [] => none
  | name :: root, part :: parts =>
      if !isStep part then partsBelow? (name :: root) parts
      else if part = name then partsBelow? root parts
      else none

/-- The key of a URL below the root. -/
def relativeKey? (locator : Locator) (url : Url) : Option String :=
  match url.filePath? with
  | none => none
  | some path =>
      match partsBelow? locator.root (FileSystem.partsOf path) with
      | none => none
      | some parts =>
          let started := parts.dropWhile (fun part => !isStep part)
          let kept := (started.reverse.dropWhile (fun part => !isStep part)).reverse
          let key := Text.joinWith "/" kept
          some (String.ofList (key.toList.map (fun char => if char = '\\' then '/' else char)))

end Locator

/-- The text of a page and the URL it was read from, if any. -/
structure PageSource where
  text : String
  url : Option Url
deriving DecidableEq, Repr, Inhabited

namespace PageSource

def ofText (text : String) : PageSource :=
  ⟨text, none⟩

/-- A source from bytes, which have to be text. -/
def ofBytes (bytes : List UInt8) : Except SourceError PageSource :=
  match Text.decodeUtf8? bytes with
  | some text => .ok (ofText text)
  | none => .error (.unreadable .notText)

/-- The source at a `file:` URL. -/
def ofUrl (files : FileSystem) (url : Url) : Except SourceError PageSource :=
  if !url.isFile then .error (.unsupportedScheme url.scheme)
  else
    match url.filePath? with
    | none => .error (.notFound url.text)
    | some path =>
        match files.readText path with
        | .ok text => .ok ⟨text, some url⟩
        | .error .notFound => .error (.notFound url.text)
        | .error reason => .error (.unreadable reason)

/-- The source that a key names. -/
def ofKey (files : FileSystem) (locator : Locator) (key : String) :
    Except SourceError PageSource :=
  match locator.normalize files key with
  | .ok url => ofUrl files url
  | .error error => .error error

def document (source : PageSource) : Except SourceError Markup.Document :=
  match Markup.Document.parse source.text with
  | .ok document => .ok document
  | .error malformed => .error (.malformed malformed)

end PageSource

end LivePage
