import LivePage.Dict
import LivePage.Text.Bytes
import LivePage.Text.Cut

/-!
Contract: a file system as a value.

Owns:
- files, directories and symbolic links by their absolute names;
- the walk from a path text to the link-free name of what exists there;
- reading, writing and deleting of files.

Does not own: which part of the file system a page may see.
-/

namespace LivePage

/-- Names from the root of the file system on. -/
abbrev Path := List String

namespace Path

def text (path : Path) : String :=
  if path.isEmpty then "/" else String.join (path.map ("/" ++ ·))

/-- Whether a path is another one or lies below it. -/
def isWithin (path root : Path) : Bool :=
  root.isPrefixOf path

end Path

/-- Why a file cannot be used. -/
inductive FileError where
  | notFound
  | notDirectory
  | isDirectory
  | tooManyLinks
  | nameTooLong
  | nulInName
  | notText
deriving DecidableEq, Repr

def FileError.message : FileError → String
  | .notFound => "No such file or directory (os error 2)"
  | .notDirectory => "Not a directory (os error 20)"
  | .isDirectory => "Is a directory (os error 21)"
  | .tooManyLinks => "Too many levels of symbolic links (os error 40)"
  | .nameTooLong => "File name too long (os error 36)"
  | .nulInName => "file name contained an unexpected NUL byte"
  | .notText => "stream did not contain valid UTF-8"

/-- What a name stands for. -/
inductive FileEntry where
  | file (content : List UInt8)
  | directory
  | link (target : String)
deriving DecidableEq, Repr

/-- The entries by the texts of their paths; the root is always a directory. -/
structure FileSystem where
  entries : Dict FileEntry
deriving Inhabited

namespace FileSystem

def empty : FileSystem := ⟨.empty⟩

def entry? (files : FileSystem) (path : Path) : Option FileEntry :=
  if path.isEmpty then some .directory else files.entries.get? path.text

/-- The parts of a path text; empty parts and dots stand for no step. -/
def partsOf (text : String) : List String :=
  Text.splitText '/' text

def isAbsolute (text : String) : Bool :=
  text.toList.head? == some '/'

/-- How many links one walk follows. -/
def linkLimit : Nat := 40

/-- The longest name, in bytes. -/
def nameLimit : Nat := 255

/-- Walks from a link-free path along further parts, following links. -/
def walk (files : FileSystem) (links : Nat) (current : Path) (parts : List String) :
    Except FileError Path :=
  match parts with
  | [] => .ok current
  | part :: rest =>
      if files.entry? current ≠ some .directory then .error .notDirectory
      else if part = "" ∨ part = "." then walk files links current rest
      else if part = ".." then walk files links current.dropLast rest
      else if Text.byteLength part > nameLimit then .error .nameTooLong
      else
        match files.entry? (current ++ [part]) with
        | none => .error .notFound
        | some (.link target) =>
            match links with
            | 0 => .error .tooManyLinks
            | fewer + 1 =>
                walk files fewer (if isAbsolute target then [] else current)
                  (partsOf target ++ rest)
        | some _ => walk files links (current ++ [part]) rest
termination_by (links, parts.length)

/-- The link-free path of what exists at a path text. Relative texts lead nowhere. -/
def canonicalize (files : FileSystem) (text : String) : Except FileError Path :=
  if text.toList.contains '\x00' then .error .nulInName
  else if isAbsolute text then files.walk linkLimit [] (partsOf text)
  else .error .notFound

def isFile (files : FileSystem) (path : Path) : Bool :=
  match files.entry? path with
  | some (.file _) => true
  | _ => false

/-- The text of the file at a path text. -/
def readText (files : FileSystem) (text : String) : Except FileError String := do
  let path ← files.canonicalize text
  match files.entry? path with
  | some (.file content) =>
      match Text.decodeUtf8? content with
      | some read => .ok read
      | none => .error .notText
  | some _ => .error .isDirectory
  | none => .error .notFound

/-- Adds an entry and the directories above it. -/
def put (files : FileSystem) (path : Path) (entry : FileEntry) : FileSystem :=
  let above := (List.range path.length).drop 1 |>.map (fun length => path.take length)
  let withDirectories := above.foldl
    (fun entries directory =>
      if entries.contains (Path.text directory) then entries
      else entries.insert (Path.text directory) .directory)
    files.entries
  ⟨withDirectories.insert path.text entry⟩

def remove (files : FileSystem) (path : Path) : FileSystem :=
  ⟨files.entries.erase path.text⟩

/-- The path of a text, with dots resolved by the names alone. -/
def plainPath (text : String) : Path :=
  (partsOf text).foldl
    (fun path part =>
      if part = "" ∨ part = "." then path
      else if part = ".." then path.dropLast
      else path ++ [part]) []

/-- Writes the file at a path text, also where a link leads to it. -/
def write (files : FileSystem) (text : String) (content : List UInt8) : FileSystem :=
  match files.canonicalize text with
  | .ok path => files.put path (.file content)
  | .error _ => files.put (plainPath text) (.file content)

/-- Deletes the file or link at a path text, and says whether there was one. -/
def delete (files : FileSystem) (text : String) : FileSystem × Bool :=
  let path := plainPath text
  let entryPath :=
    match files.canonicalize (Path.text path.dropLast), path.getLast? with
    | .ok directory, some name => directory ++ [name]
    | _, _ => path
  match files.entry? entryPath with
  | none => (files, false)
  | some .directory => (files, false)
  | some _ => (files.remove entryPath, true)

end FileSystem

end LivePage
