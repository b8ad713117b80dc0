import LivePage.Blueprint.Parser

/-!
Contract: blueprints kept by the location of their page.

Owns:
- the cache, which reads a page at most once until it is removed;
- inline markup in place of a key, which is read each time;
- the pages to be read ahead.

Does not own: when a page is read ahead.
-/

namespace LivePage

/-- Why a page cannot be loaded. -/
inductive CacheError where
  | load (key : String) (reason : ParseError)
deriving DecidableEq, Repr

namespace CacheError

def message : CacheError → String
  | .load key _ => "failed to load page `" ++ key ++ "`"

/-- The message and those of its causes, the outermost first. -/
def chain (error : CacheError) : List String :=
  match error with
  | .load _ reason => error.message :: reason.chain

end CacheError

/-- A blueprint as one reading made it. Two readings differ in their serial
number, even if they read the same text. -/
structure SharedBlueprint where
  serial : Nat
  blueprint : Blueprint
deriving Inhabited

/-- How reading ahead went. -/
structure PrecompileReport where
  compiled : Nat
  failed : Nat
deriving DecidableEq, Repr, Inhabited

structure BlueprintCache where
  parser : PageParser
  locator : Locator
  /-- The blueprints by the text of their URL. -/
  entries : Dict SharedBlueprint
  nextSerial : Nat
  /-- The keys to read ahead, until that was done. -/
  pending : Option (List String)
deriving Inhabited

namespace BlueprintCache

def new (parser : PageParser) (locator : Locator) : BlueprintCache :=
  ⟨parser, locator, .empty, 0, some []⟩

def size (cache : BlueprintCache) : Nat :=
  cache.entries.size

def isEmpty (cache : BlueprintCache) : Bool :=
  cache.entries.isEmpty

/-- Whether a key is markup rather than the name of a page. -/
def isInlineMarkup (key : String) : Bool :=
  (Text.trimStart key.toList).head? = some '<'

/-- Gives a new blueprint its serial number. -/
def share (cache : BlueprintCache) (blueprint : Blueprint) : BlueprintCache × SharedBlueprint :=
  ({ cache with nextSerial := cache.nextSerial + 1 }, ⟨cache.nextSerial, blueprint⟩)

/-- Reads inline markup. -/
def readInline (cache : BlueprintCache) (files : FileSystem) (markup : String) :
    BlueprintCache × Except CacheError SharedBlueprint :=
  match cache.parser.parse files (.ofText markup) with
  | .ok blueprint =>
      let (next, shared) := cache.share blueprint
      (next, .ok shared)
  | .error reason => (cache, .error (.load markup reason))

/-- Reads the page at a URL. -/
def readPage (cache : BlueprintCache) (files : FileSystem) (url : Url) :
    Except ParseError Blueprint :=
  match PageSource.ofUrl files url with
  | .ok source => cache.parser.parse files source
  | .error reason => .error (.source reason)

/-- The blueprint at a URL, read on first use. -/
def getAt (cache : BlueprintCache) (files : FileSystem) (key : String) (url : Url) :
    BlueprintCache × Except CacheError SharedBlueprint :=
  match cache.entries.get? url.text with
  | some shared => (cache, .ok shared)
  | none =>
      match cache.readPage files url with
      | .error reason => (cache, .error (.load key reason))
      | .ok blueprint =>
          let (next, shared) := cache.share blueprint
          ({ next with entries := next.entries.insert url.text shared }, .ok shared)

/-- The blueprint of a key. A key that names no page may be inline markup. -/
def get (cache : BlueprintCache) (files : FileSystem) (key : String) :
    BlueprintCache × Except CacheError SharedBlueprint :=
  match cache.locator.normalize files key with
  | .ok url => cache.getAt files key url
  | .error reason =>
      let namesNothing :=
        match reason with
        | .notFound _ => true
        | .invalidLocation _ _ => true
        | _ => false
      if namesNothing && isInlineMarkup key then cache.readInline files key
      else (cache, .error (.load key (.source reason)))

def isCached (cache : BlueprintCache) (files : FileSystem) (key : String) : Bool :=
  match cache.locator.normalize files key with
  | .ok url => cache.entries.contains url.text
  | .error _ => false

/-- Removes the blueprint of a key and gives it back. -/
def remove (cache : BlueprintCache) (files : FileSystem) (key : String) :
    BlueprintCache × Option SharedBlueprint :=
  match cache.locator.normalize files key with
  | .ok url =>
      ({ cache with entries := cache.entries.erase url.text }, cache.entries.get? url.text)
  | .error _ => (cache, none)

def clear (cache : BlueprintCache) : BlueprintCache :=
  { cache with entries := .empty }

/-- Queues a key for reading ahead; refused once that was done. -/
def addPrecompile (cache : BlueprintCache) (key : String) : BlueprintCache × Bool :=
  match cache.pending with
  | some keys => ({ cache with pending := some (keys ++ [key]) }, true)
  | none => (cache, false)

/-- Whether the last name of a path text has an extension: a dot that is not
its first character. -/
def hasExtension (key : String) : Bool :=
  match ((Text.splitText '/' key).filter (fun part => part ≠ "" && part ≠ ".")).getLast? with
  | none => false
  | some name => name ≠ ".." && (name.toList.drop 1).contains '.'

/-- A key with the extension of pages, unless it has one. -/
def withDefaultExtension (key : String) : String :=
  if hasExtension key then key else key ++ ".fsp"

/-- Reads keys one after another and counts how it went. -/
def precompileAll (files : FileSystem) (cache : BlueprintCache) (report : PrecompileReport) :
    List String → BlueprintCache × PrecompileReport
  | [] => (cache, report)
  | key :: rest =>
      match cache.get files (withDefaultExtension key) with
      | (next, .ok _) =>
          precompileAll files next { report with compiled := report.compiled + 1 } rest
      | (next, .error _) =>
          precompileAll files next { report with failed := report.failed + 1 } rest

/-- Reads the queued pages ahead, the first time it is asked for. -/
def precompile (cache : BlueprintCache) (files : FileSystem) :
    BlueprintCache × PrecompileReport :=
  match cache.pending with
  | none => (cache, ⟨0, 0⟩)
  | some keys => precompileAll files { cache with pending := none } ⟨0, 0⟩ keys

end BlueprintCache

end LivePage
