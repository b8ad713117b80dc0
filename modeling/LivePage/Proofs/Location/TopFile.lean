import LivePage.Location.Locator

/-!
Contract: pages in files at the top of a file system.

Owns:
- reading a page from the URL of such a file.

Does not own: files in directories, and links.
-/

namespace LivePage

/-- Whether a path text leads to a file of the given name and content at the top of
a file system. -/
structure FileSystem.HoldsAtTop (files : FileSystem) (path name : String)
    (content : List UInt8) : Prop where
  noNul : path.toList.contains '\x00' = false
  absolute : isAbsolute path = true
  parts : partsOf path = ["", name]
  isName : name ≠ "" ∧ name ≠ "." ∧ name ≠ ".."
  short : Text.byteLength name ≤ nameLimit
  held : files.entry? [name] = some (.file content)

theorem FileSystem.HoldsAtTop.walked {files : FileSystem} {path name : String}
    {content : List UInt8} (holds : files.HoldsAtTop path name content) :
    files.walk linkLimit [] ["", name] = .ok [name] := by
  have atTop : files.entry? [] = some .directory := rfl
  have short : ¬Text.byteLength name > nameLimit := Nat.not_lt.mpr holds.short
  rw [walk, walk]
  simp only [atTop, List.nil_append, holds.held, holds.isName, short]
  simp [walk]

theorem FileSystem.HoldsAtTop.readText {files : FileSystem} {path name text : String}
    {content : List UInt8} (holds : files.HoldsAtTop path name content)
    (decoded : Text.decodeUtf8? content = some text) : files.readText path = .ok text := by
  have canonical : files.canonicalize path = .ok [name] := by
    rw [canonicalize, holds.noNul, holds.absolute, holds.parts, holds.walked]
    rfl
  simp only [FileSystem.readText, canonical, holds.held, decoded, bind, Except.bind]

theorem PageSource.ofUrl_of_holdsAtTop {files : FileSystem} {url : Url} {path name text : String}
    {content : List UInt8} (isFile : url.isFile = true) (path_eq : url.filePath? = some path)
    (holds : files.HoldsAtTop path name content)
    (decoded : Text.decodeUtf8? content = some text) :
    PageSource.ofUrl files url = .ok ⟨text, some url⟩ := by
  simp only [PageSource.ofUrl, isFile, path_eq, holds.readText decoded]
  rfl

end LivePage
