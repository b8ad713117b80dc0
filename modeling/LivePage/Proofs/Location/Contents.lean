import LivePage.Proofs.Location.Containment

/-!
Contract: file systems that differ in the contents of files only.

Owns:
- equality of two file systems but for the contents of the files at some paths;
- what only follows names and links is the same in both: walks, keys and references;
- what is read at a URL is the same unless it is one of these files.

Does not own: what a page's markup means.
-/

namespace LivePage

/-- Two file systems are the same but for the contents of regular files at some paths. -/
def FileSystem.SameBut (free : Path → Prop) (files other : FileSystem) : Prop :=
  ∀ path, other.entry? path = files.entry? path ∨
    free path ∧ files.isFile path = true ∧ other.isFile path = true

namespace FileSystem.SameBut

variable {free : Path → Prop} {files other : FileSystem} (same : files.SameBut free other)

include same

theorem isFile_eq (path : Path) : other.isFile path = files.isFile path := by
  rcases same path with equal | ⟨-, isFile, otherIsFile⟩
  · rw [isFile, isFile, equal]
  · rw [isFile, otherIsFile]

/-- Directories, links and gaps are the same in both. -/
private theorem entry?_eq_iff (path : Path) {entry : Option FileEntry}
    (notFile : ∀ content, entry ≠ some (.file content)) :
    other.entry? path = entry ↔ files.entry? path = entry := by
  have isFile_of : ∀ files : FileSystem, files.isFile path = true → files.entry? path ≠ entry := by
    rintro files isFile rfl
    unfold FileSystem.isFile at isFile
    split at isFile
    · next content found => exact notFile content found
    · cases isFile
  rcases same path with equal | ⟨-, isFile, otherIsFile⟩
  · rw [equal]
  · exact ⟨fun found => absurd found (isFile_of other otherIsFile),
      fun found => absurd found (isFile_of files isFile)⟩

private theorem stands {path : Path} (inFiles : files.Stands path) : other.Stands path := by
  rcases same path with equal | ⟨-, -, isFile⟩
  · rwa [FileSystem.Stands, equal]
  · unfold FileSystem.isFile at isFile
    split at isFile
    · next content found => exact ⟨.file content, found, by simp⟩
    · cases isFile

theorem walk_eq (links : Nat) (current : Path) (parts : List String) :
    other.walk links current parts = files.walk links current parts := by
  have directories : ∀ path, other.entry? path ≠ some .directory ↔
      files.entry? path ≠ some .directory :=
    fun path => not_congr (same.entry?_eq_iff path (by simp))
  fun_induction FileSystem.walk files links current parts with
  | case1 => rw [FileSystem.walk]
  | case2 links current part rest notDirectory =>
      rw [FileSystem.walk, if_pos ((directories _).mpr notDirectory)]
  | case3 links current part rest isDirectory stays inductionHypothesis =>
      rw [FileSystem.walk, if_neg (mt (directories _).mp isDirectory), if_pos stays,
        inductionHypothesis]
  | case4 links current rest isDirectory moves inductionHypothesis =>
      rw [FileSystem.walk, if_neg (mt (directories _).mp isDirectory), if_neg moves, if_pos rfl,
        inductionHypothesis]
  | case5 links current part rest isDirectory moves notDots tooLong =>
      rw [FileSystem.walk, if_neg (mt (directories _).mp isDirectory), if_neg moves,
        if_neg notDots, if_pos tooLong]
  | case6 links current part rest isDirectory moves notDots notLong missing =>
      rw [FileSystem.walk, if_neg (mt (directories _).mp isDirectory), if_neg moves,
        if_neg notDots, if_neg notLong, (same.entry?_eq_iff _ (by simp)).mpr missing]
  | case7 current part rest isDirectory moves notDots notLong target found =>
      rw [FileSystem.walk, if_neg (mt (directories _).mp isDirectory), if_neg moves,
        if_neg notDots, if_neg notLong, (same.entry?_eq_iff _ (by simp)).mpr found]
  | case8 current part rest isDirectory moves notDots notLong target found fewer
      inductionHypothesis =>
      rw [dite_eq_ite] at inductionHypothesis
      rw [FileSystem.walk, if_neg (mt (directories _).mp isDirectory), if_neg moves,
        if_neg notDots, if_neg notLong, (same.entry?_eq_iff _ (by simp)).mpr found]
      exact inductionHypothesis
  | case9 links current part rest isDirectory moves notDots notLong entry noLink found
      inductionHypothesis =>
      obtain ⟨otherEntry, otherFound, otherNoLink⟩ := same.stands ⟨entry, found, noLink⟩
      rw [FileSystem.walk, if_neg (mt (directories _).mp isDirectory), if_neg moves,
        if_neg notDots, if_neg notLong, otherFound, ← inductionHypothesis]
      cases otherEntry with
      | file content => rfl
      | directory => rfl
      | link target => exact absurd rfl (otherNoLink target)

theorem canonicalize_eq (text : String) : other.canonicalize text = files.canonicalize text := by
  simp only [FileSystem.canonicalize, same.walk_eq]

end FileSystem.SameBut

/-! ## Keys, references and sources -/

section

variable {free : Path → Prop} {files other : FileSystem} (same : files.SameBut free other)

include same

theorem Locator.new_eq (webRoot : String) :
    Locator.new other webRoot = Locator.new files webRoot := by
  simp only [Locator.new, same.canonicalize_eq]

theorem Locator.normalize_same (locator : Locator) (key : String) :
    locator.normalize other key = locator.normalize files key := by
  simp only [Locator.normalize, Locator.contain, same.canonicalize_eq, same.isFile_eq]

theorem Locator.resolve_same (locator : Locator) (base : Option Url) (reference : String) :
    locator.resolve other base reference = locator.resolve files base reference := by
  simp only [Locator.resolve, Locator.normalize_same same]

/-- A source is the same unless its content is read from a file that may differ. -/
theorem PageSource.ofUrl_same {url : Url}
    (notFree : ∀ path, fileAt? files url = some path → ¬free path) :
    PageSource.ofUrl other url = PageSource.ofUrl files url := by
  unfold PageSource.ofUrl
  split
  · rfl
  · next isFile =>
      cases isText : url.filePath? with
      | none => rfl
      | some text =>
          dsimp only
          rw [FileSystem.readText, FileSystem.readText, same.canonicalize_eq]
          cases canonical : files.canonicalize text with
          | error reason => rfl
          | ok path =>
              have sameEntry : other.entry? path = files.entry? path := by
                rcases same path with equal | ⟨isFree, regular, -⟩
                · exact equal
                · have read : fileAt? files url = some path :=
                    fileAt?_eq_some_iff.mpr
                      ⟨by simpa using isFile, text, isText, canonical, regular⟩
                  exact absurd isFree (notFree path read)
              simp only [bind, Except.bind, sameEntry]

end

end LivePage
