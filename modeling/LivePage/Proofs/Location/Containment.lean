import LivePage.Location.Locator
import LivePage.Proofs.Location.Canonical
import LivePage.Proofs.Text.Escapes

/-!
Contract: what a locator finds lies below its root.

Owns:
- the files that a locator holds: regular, below its root, by their link-free paths;
- the URL of such a file leads back to it;
- keys and references lead to such files or to nothing;
- the file whose content is read at a URL.

Does not own: which URLs a page reads.
-/

namespace LivePage

open FileSystem (slashed)

/-! ## The URL of a file -/

namespace Url

/-- Decoding the path of a URL undoes the escapes of its names. -/
theorem percentDecodeBytes_slashed (names : List String) :
    Text.percentDecodeBytes (Text.encodeUtf8
        (slashed (names.map (Text.percentEncode Text.escapedInFileName)))) =
      Text.encodeUtf8 (slashed names) := by
  induction names with
  | nil => decide +kernel
  | cons name rest inductionHypothesis =>
      have slash : Text.encodeUtf8 "/" = ['/'.toUInt8] := by decide +kernel
      have notMark : '/'.toUInt8 ≠ '%'.toUInt8 := by decide
      have split : ∀ first others, slashed (first :: others) = "/" ++ first ++ slashed others :=
        fun first others => by simp [slashed]
      rw [List.map_cons, split, split, Text.encodeUtf8_append, Text.encodeUtf8_append,
        Text.encodeUtf8_append, Text.encodeUtf8_append, slash, List.append_assoc,
        List.singleton_append, Text.percentDecodeBytes_plain notMark,
        Text.percentDecodeBytes_percentEncode Text.undoable_fileName, inductionHypothesis]
      simp

/-- Whether a path text ends like the name of a drive. -/
def endsInDrive (text : String) : Bool :=
  match text.toList.reverse.take 2 with
  | [mark, letter] => isDriveName [letter, mark] && text.length > 2
  | _ => false

/-- The URL of an absolute path gives the path back; a path that ends like the name of a
drive gets a slash behind it. -/
theorem filePath?_ofFilePath {names : List String} (notRoot : names ≠ []) :
    (ofFilePath names).filePath? =
      some (if endsInDrive (slashed names) then slashed names ++ "/" else slashed names) := by
  have notEmpty : (names.map (Text.percentEncode Text.escapedInFileName)).isEmpty = false := by
    cases names with
    | nil => exact absurd rfl notRoot
    | cons name rest => rfl
  have encoded : String.join ((names.map (Text.percentEncode Text.escapedInFileName)).map
      ("/" ++ ·)) = slashed (names.map (Text.percentEncode Text.escapedInFileName)) := rfl
  simp only [filePath?, ofFilePath, notEmpty, Bool.false_eq_true, if_false, Option.isSome_none,
    Bool.false_and, encoded, percentDecodeBytes_slashed, Text.decodeUtf8?_encodeUtf8,
    Option.getD_some]
  rfl

end Url

/-! ## Files that a locator holds -/

/-- A path lies within another one if its names begin with the names of that one. -/
theorem Path.isWithin_eq_true_iff {path root : Path} :
    path.isWithin root = true ↔ root <+: path := List.isPrefixOf_iff_prefix

/-- A regular file below the root, named by its link-free path. -/
structure Locator.Holds (locator : Locator) (files : FileSystem) (path : Path) : Prop where
  regular : files.isFile path = true
  within : locator.root <+: path
  linkFree : files.LinkFree [] path

theorem Locator.Holds.notRoot {locator : Locator} {files : FileSystem} {path : Path}
    (holds : locator.Holds files path) : path ≠ [] := by
  rintro rfl
  have regular := holds.regular
  rw [FileSystem.isFile, FileSystem.entry?_root] at regular
  cases regular

namespace PageSource

/-- The file whose content is read at a URL, if there is any. -/
def fileAt? (files : FileSystem) (url : Url) : Option Path :=
  if url.isFile then
    match url.filePath? with
    | some text =>
        match files.canonicalize text with
        | .ok path => if files.isFile path then some path else none
        | .error _ => none
    | none => none
  else none

theorem fileAt?_eq_some_iff {files : FileSystem} {url : Url} {path : Path} :
    fileAt? files url = some path ↔
      url.isFile = true ∧ ∃ text, url.filePath? = some text ∧ files.canonicalize text = .ok path ∧
        files.isFile path = true := by
  unfold fileAt?
  cases url.isFile with
  | false => simp
  | true =>
      cases url.filePath? with
      | none => simp
      | some text =>
          simp only [if_true, true_and, Option.some.injEq]
          cases canonical : files.canonicalize text with
          | error reason => simp [canonical]
          | ok found =>
              simp only [Option.ite_none_right_eq_some, Option.some.injEq]
              constructor
              · rintro ⟨isFile, rfl⟩
                exact ⟨text, rfl, canonical, isFile⟩
              · rintro ⟨_, rfl, canonical', isFile⟩
                obtain rfl := Except.ok.inj (canonical.symm.trans canonical')
                exact ⟨isFile, rfl⟩

/-- At the URL of a file that a locator holds, only this file is read, and its path text
leads to it. -/
theorem eq_of_fileAt?_ofFilePath {files : FileSystem} {locator : Locator} {path found : Path}
    (holds : locator.Holds files path) (read : fileAt? files (Url.ofFilePath path) = some found) :
    found = path ∧ files.canonicalize path.text = .ok path := by
  have notRoot := holds.notRoot
  obtain ⟨-, text, isText, canonical, -⟩ := fileAt?_eq_some_iff.mp read
  rw [Url.filePath?_ofFilePath notRoot, Option.some.injEq] at isText
  split at isText
  · subst isText
    exact absurd canonical
      (FileSystem.canonicalize_slashed_behind_file holds.linkFree holds.regular)
  · subst isText
    obtain rfl := FileSystem.eq_of_canonicalize_slashed holds.linkFree canonical
    exact ⟨rfl, FileSystem.text_eq_slashed notRoot ▸ canonical⟩

end PageSource

namespace Locator

variable {locator : Locator} {files : FileSystem}

/-! ## Keys and references -/

/-- The path text that a key stands for. -/
def pathText (locator : Locator) (key : String) : Except SourceError String :=
  let trimmed := Text.trimText key
  if trimmed.isEmpty then .error (.invalidLocation trimmed "empty resource key")
  else
    match Url.parse trimmed with
    | .ok url => filePath url
    | .error .relativeWithoutBase => .ok (locator.below trimmed)
    | .error reason => .error (.invalidLocation trimmed reason.message)

theorem normalize_eq (key : String) :
    locator.normalize files key =
      match locator.pathText key with
      | .ok text => locator.contain files (Text.trimText key) text
      | .error error => .error error := by
  unfold normalize pathText
  dsimp only
  split
  · rfl
  · cases Url.parse (Text.trimText key) with
    | ok url => cases path : filePath url <;> simp only [path]
    | error reason => cases reason <;> rfl

theorem contain_eq_ok_iff {key text : String} {url : Url} :
    locator.contain files key text = .ok url ↔
      ∃ path, files.canonicalize text = .ok path ∧ locator.Holds files path ∧
        url = Url.ofFilePath path := by
  unfold contain
  cases canonical : files.canonicalize text with
  | error reason => simp
  | ok path =>
      have linkFree := FileSystem.linkFree_of_canonicalize canonical
      constructor
      · intro contained
        dsimp only at contained
        split at contained
        · cases contained
        · next within =>
            split at contained
            · cases contained
            · next isFile =>
                have isWithin : path.isWithin locator.root = true := by simpa using within
                exact ⟨path, rfl,
                  ⟨by simpa using isFile, Path.isWithin_eq_true_iff.mp isWithin, linkFree⟩,
                  (Except.ok.inj contained).symm⟩
      · rintro ⟨_, same, holds, rfl⟩
        obtain rfl := Except.ok.inj same
        simp [Path.isWithin_eq_true_iff.mpr holds.within, holds.regular]

/-- A key leads to what exists at its path text. -/
def LeadsTo (locator : Locator) (files : FileSystem) (key : String) (path : Path) : Prop :=
  ∃ text, locator.pathText key = .ok text ∧ files.canonicalize text = .ok path

theorem LeadsTo.unique {key : String} {path other : Path} (leads : locator.LeadsTo files key path)
    (leadsToo : locator.LeadsTo files key other) : path = other := by
  obtain ⟨text, isText, canonical⟩ := leads
  obtain ⟨_, isTextToo, canonicalToo⟩ := leadsToo
  obtain rfl := Except.ok.inj (isText.symm.trans isTextToo)
  exact Except.ok.inj (canonical.symm.trans canonicalToo)

/-- A key is found exactly when it leads to a file that the locator holds, at the URL of this
file. -/
theorem normalize_eq_ok_iff {key : String} {url : Url} :
    locator.normalize files key = .ok url ↔
      ∃ path, locator.LeadsTo files key path ∧ locator.Holds files path ∧
        url = Url.ofFilePath path := by
  rw [normalize_eq]
  unfold LeadsTo
  cases locator.pathText key with
  | error error => simp
  | ok text => simp [contain_eq_ok_iff]

theorem exists_normalize_eq_error {key : String}
    (elsewhere : ∀ path, locator.LeadsTo files key path → ¬locator.Holds files path) :
    ∃ reason, locator.normalize files key = .error reason := by
  cases found : locator.normalize files key with
  | error reason => exact ⟨reason, rfl⟩
  | ok url =>
      obtain ⟨path, leads, holds, -⟩ := normalize_eq_ok_iff.mp found
      exact absurd holds (elsewhere path leads)

theorem normalize_of_outside {key : String} {path : Path} (leads : locator.LeadsTo files key path)
    (outside : ¬locator.root <+: path) :
    locator.normalize files key = .error (.outsideRoot (Text.trimText key)) := by
  obtain ⟨text, isText, canonical⟩ := leads
  rw [← Path.isWithin_eq_true_iff, Bool.not_eq_true] at outside
  simp [normalize_eq, isText, contain, canonical, outside]

/-- What is read at the URL of a key is a file that the locator holds. -/
theorem holds_of_normalize {key : String} {url : Url} {path : Path}
    (found : locator.normalize files key = .ok url)
    (read : PageSource.fileAt? files url = some path) :
    locator.Holds files path ∧ files.canonicalize path.text = .ok path := by
  obtain ⟨held, -, holds, rfl⟩ := normalize_eq_ok_iff.mp found
  obtain ⟨rfl, canonical⟩ := PageSource.eq_of_fileAt?_ofFilePath holds read
  exact ⟨holds, canonical⟩

/-- The key that a reference from a page stands for. -/
def keyOf (base : Option Url) (reference : String) : Except SourceError String :=
  match base with
  | some url =>
      if reference.toList.head? = some '/' then .ok reference
      else
        match url.join reference with
        | .ok joined => .ok joined.text
        | .error reason => .error (.invalidLocation reference reason.message)
  | none => .ok reference

theorem resolve_eq (base : Option Url) (reference : String) :
    locator.resolve files base reference =
      match keyOf base reference with
      | .ok key => locator.normalize files key
      | .error error => .error error := by
  cases base with
  | none => rfl
  | some url =>
      simp only [resolve, keyOf]
      split
      · rfl
      · cases url.join reference <;> rfl

/-- A reference leads to where its key leads. -/
def ReferenceLeadsTo (locator : Locator) (files : FileSystem) (base : Option Url)
    (reference : String) (path : Path) : Prop :=
  ∃ key, keyOf base reference = .ok key ∧ locator.LeadsTo files key path

theorem resolve_eq_ok {base : Option Url} {reference : String} {url : Url}
    (resolved : locator.resolve files base reference = .ok url) :
    ∃ key, keyOf base reference = .ok key ∧ locator.normalize files key = .ok url := by
  rw [resolve_eq] at resolved
  cases isKey : keyOf base reference with
  | error error =>
      rw [isKey] at resolved
      cases resolved
  | ok key =>
      rw [isKey] at resolved
      exact ⟨key, rfl, resolved⟩

theorem exists_resolve_eq_error {base : Option Url} {reference : String}
    (elsewhere : ∀ path, locator.ReferenceLeadsTo files base reference path →
      ¬locator.Holds files path) :
    ∃ reason, locator.resolve files base reference = .error reason := by
  cases resolved : locator.resolve files base reference with
  | error reason => exact ⟨reason, rfl⟩
  | ok url =>
      obtain ⟨key, isKey, found⟩ := resolve_eq_ok resolved
      obtain ⟨path, leads, holds, -⟩ := normalize_eq_ok_iff.mp found
      exact absurd holds (elsewhere path ⟨key, isKey, leads⟩)

end Locator

end LivePage
