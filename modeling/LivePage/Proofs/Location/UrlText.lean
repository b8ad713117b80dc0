import LivePage.Proofs.Location.Containment
import LivePage.Proofs.Text.Ends

/-!
Contract: the URL of a file is read back from its text.

Owns:
- the characters of escaped names, which have no meaning of their own in a URL;
- the paths that their URLs lead back to;
- the text of a file's URL as a key, and as a reference against any base;
- the URL of a file, and the text of this URL, stand for one path only.

Does not own: which keys lead to a file.
-/

namespace LivePage

open FileSystem (slashed IsName)

/-! ## Characters of escaped names -/

namespace Text

/-- Visible characters that stand for themselves in a name of a URL's path. -/
structure IsPathChar (char : Char) : Prop where
  visible : 0x20 < char.toNat
  ascii : char.toNat < 0x7F
  unescaped : escapedInPath char.toUInt8 = false
  whole : char ≠ '/' ∧ char ≠ '\\'

instance (char : Char) : Decidable (IsPathChar char) :=
  decidable_of_iff (0x20 < char.toNat ∧ char.toNat < 0x7F ∧ escapedInPath char.toUInt8 = false ∧
      char ≠ '/' ∧ char ≠ '\\')
    ⟨fun holds => ⟨holds.1, holds.2.1, holds.2.2.1, holds.2.2.2⟩,
      fun isChar => ⟨isChar.visible, isChar.ascii, isChar.unescaped, isChar.whole⟩⟩

theorem IsPathChar.notTailMark {char : Char} (isChar : IsPathChar char) :
    Url.isTailMark char = false := by
  have unescaped := isChar.unescaped
  simp only [Url.isTailMark, Bool.or_eq_false_iff, beq_eq_false_iff_ne]
  constructor
  · rintro rfl
    revert unescaped
    decide +kernel
  · rintro rfl
    revert unescaped
    decide +kernel

theorem isPathChar_of_mem_percentEncode {text : String} {char : Char}
    (member : char ∈ (percentEncode escapedInFileName text).toList) : IsPathChar char := by
  rw [percentEncode, String.toList_join, List.flatMap_map, List.mem_flatMap] at member
  obtain ⟨byte, -, member⟩ := member
  have small : byte.toNat < 256 := byte.toNat_lt
  split at member
  · have digits : ∀ value < 16, IsPathChar (upperHexDigit value) := by decide +kernel
    rw [percentEscape, String.toList_ofList] at member
    simp only [List.mem_cons, List.not_mem_nil, or_false] at member
    rcases member with rfl | rfl | rfl
    · decide +kernel
    · exact digits _ (by omega)
    · exact digits _ (by omega)
  · next plain =>
      have kept : ∀ code < 256, escapedInFileName (UInt8.ofNat code) = false →
          IsPathChar (Char.ofNat code) := by decide +kernel
      obtain rfl : char = Char.ofNat byte.toNat := by simpa using member
      exact kept _ small (by simpa using plain)

theorem percentEncode_of_pathChars {name : String} (chars : ∀ char ∈ name.toList, IsPathChar char) :
    percentEncode escapedInPath name = name :=
  percentEncode_of_plain fun char member =>
    ⟨Nat.lt_succ_of_lt (chars char member).ascii, (chars char member).unescaped⟩

/-! ### Dots -/

/-- Characters of ASCII that are in lower case what stands in the escape of a dot. -/
private theorem toLower_cases {char : Char} (ascii : char.toNat < 128) :
    (char.toLower = '.' → char = '.') ∧ (char.toLower = '%' → char = '%') ∧
      (char.toLower = '2' → char = '2') ∧ (char.toLower = 'e' → char = 'e' ∨ char = 'E') := by
  obtain ⟨code, small, rfl⟩ : ∃ code < 128, char = Char.ofNat code :=
    ⟨char.toNat, ascii, (Char.ofNat_toNat char).symm⟩
  clear ascii
  revert code
  decide +kernel

/-- A dot or its escape, in either case, decodes to a dot. -/
private theorem percentDecodeBytes_dot {chars : List Char}
    (ascii : ∀ char ∈ chars, char.toNat < 128) {spelling rest : List Char}
    (isDot : spelling = ['.'] ∨ spelling = ['%', '2', 'e'])
    (lower : chars.map Char.toLower = spelling ++ rest) :
    ∃ more : List Char, more.map Char.toLower = rest ∧ (∀ char ∈ more, char.toNat < 128) ∧
      percentDecodeBytes (chars.map Char.toUInt8) =
        '.'.toUInt8 :: percentDecodeBytes (more.map Char.toUInt8) := by
  rcases isDot with rfl | rfl
  · obtain ⟨dot, more, rfl, isDot, isRest⟩ := List.map_eq_cons_iff.mp lower
    obtain ⟨atDot, inMore⟩ := List.forall_mem_cons.mp ascii
    obtain rfl := (toLower_cases atDot).1 isDot
    exact ⟨more, isRest, inMore, percentDecodeBytes_plain (by decide) _⟩
  · obtain ⟨mark, _, rfl, isMark, lower⟩ := List.map_eq_cons_iff.mp lower
    obtain ⟨high, _, rfl, isHigh, lower⟩ := List.map_eq_cons_iff.mp lower
    obtain ⟨low, more, rfl, isLow, isRest⟩ := List.map_eq_cons_iff.mp lower
    simp only [List.forall_mem_cons] at ascii
    obtain ⟨atMark, atHigh, atLow, inMore⟩ := ascii
    obtain rfl := (toLower_cases atMark).2.1 isMark
    obtain rfl := (toLower_cases atHigh).2.2.1 isHigh
    refine ⟨more, isRest, inMore, ?_⟩
    rcases (toLower_cases atLow).2.2.2 isLow with rfl | rfl <;> rfl

private theorem map_toLower_of_lowerAscii {name spelling : String}
    (lower : lowerAscii name = spelling) : name.toList.map Char.toLower = spelling.toList := by
  rw [← lower, lowerAscii, String.toList_ofList]

private theorem percentDecodeBytes_of_isSingleDot {name : String}
    (ascii : ∀ char ∈ name.toList, char.toNat < 128) (isDot : Url.isSingleDot name = true) :
    percentDecodeBytes (name.toList.map Char.toUInt8) = encodeUtf8 "." := by
  obtain ⟨spelling, isSpelling, lower⟩ : ∃ spelling,
      (spelling = ['.'] ∨ spelling = ['%', '2', 'e']) ∧
        name.toList.map Char.toLower = spelling ++ [] := by
    simp only [Url.isSingleDot, Bool.or_eq_true, beq_iff_eq] at isDot
    rcases isDot with plain | escaped
    · exact ⟨['.'], .inl rfl, map_toLower_of_lowerAscii plain⟩
    · exact ⟨['%', '2', 'e'], .inr rfl, map_toLower_of_lowerAscii escaped⟩
  obtain ⟨more, atEnd, -, decoded⟩ := percentDecodeBytes_dot ascii isSpelling lower
  obtain rfl := List.map_eq_nil_iff.mp atEnd
  rw [decoded]
  decide +kernel

private theorem percentDecodeBytes_of_isDoubleDot {name : String}
    (ascii : ∀ char ∈ name.toList, char.toNat < 128) (isDots : Url.isDoubleDot name = true) :
    percentDecodeBytes (name.toList.map Char.toUInt8) = encodeUtf8 ".." := by
  obtain ⟨spelling, other, isSpelling, isOther, lower⟩ : ∃ spelling other,
      (spelling = ['.'] ∨ spelling = ['%', '2', 'e']) ∧
        (other = ['.'] ∨ other = ['%', '2', 'e']) ∧
        name.toList.map Char.toLower = spelling ++ (other ++ []) := by
    simp only [Url.isDoubleDot, List.contains_eq_mem, List.mem_cons, List.not_mem_nil, or_false,
      decide_eq_true_eq] at isDots
    rcases isDots with spelled | spelled | spelled | spelled
    · exact ⟨['.'], ['.'], .inl rfl, .inl rfl, map_toLower_of_lowerAscii spelled⟩
    · exact ⟨['%', '2', 'e'], ['%', '2', 'e'], .inr rfl, .inr rfl,
        map_toLower_of_lowerAscii spelled⟩
    · exact ⟨['%', '2', 'e'], ['.'], .inr rfl, .inl rfl, map_toLower_of_lowerAscii spelled⟩
    · exact ⟨['.'], ['%', '2', 'e'], .inl rfl, .inr rfl, map_toLower_of_lowerAscii spelled⟩
  obtain ⟨more, lowerMore, asciiMore, decoded⟩ := percentDecodeBytes_dot ascii isSpelling lower
  obtain ⟨last, atEnd, -, decodedMore⟩ := percentDecodeBytes_dot asciiMore isOther lowerMore
  obtain rfl := List.map_eq_nil_iff.mp atEnd
  rw [decoded, decodedMore]
  decide +kernel

/-- The escaped name of a step down is no dot and no two dots, however these are spelled. -/
theorem not_dots_percentEncode {name : String} (isName : IsName name) :
    Url.isDoubleDot (percentEncode escapedInFileName name) = false ∧
      Url.isSingleDot (percentEncode escapedInFileName name) = false := by
  have ascii : ∀ char ∈ (percentEncode escapedInFileName name).toList, char.toNat < 128 :=
    fun char member => Nat.lt_succ_of_lt (isPathChar_of_mem_percentEncode member).ascii
  have decoded := percentDecodeBytes_of_percentEncode undoable_fileName name
  rw [← String.ofList_toList (s := percentEncode escapedInFileName name),
    encodeUtf8_of_ascii ascii] at decoded
  constructor
  · by_contra isDots
    rw [Bool.not_eq_false] at isDots
    have same := decoded.symm.trans (percentDecodeBytes_of_isDoubleDot ascii isDots)
    exact isName.step.2.2 (encodeUtf8_injective same)
  · by_contra isDot
    rw [Bool.not_eq_false] at isDot
    have same := decoded.symm.trans (percentDecodeBytes_of_isSingleDot ascii isDot)
    exact isName.step.2.1 (encodeUtf8_injective same)

end Text

/-! ## Paths and their URLs -/

/-- Paths without names that a URL takes for those of drives: a letter and a bar in front, or a
letter with a colon or bar at the end. -/
structure Path.DriveFree (path : Path) : Prop where
  front : ∀ letter : Char, letter.isAlpha = true → path.head? ≠ some (String.ofList [letter, '|'])
  back : ∀ (start : List Char) (letter mark : Char), letter.isAlpha = true →
    mark = ':' ∨ mark = '|' → path.getLast? ≠ some (String.ofList (start ++ [letter, mark]))

namespace Url

/-- The names of a path as its URL has them. -/
def escapedNames (path : Path) : List String :=
  path.map (Text.percentEncode Text.escapedInFileName)

variable {path : Path}

theorem ofFilePath_eq (notRoot : path ≠ []) :
    ofFilePath path = ⟨fileScheme, "", none, none, .names (escapedNames path), none, none⟩ := by
  obtain ⟨name, rest, rfl⟩ := List.exists_cons_of_ne_nil notRoot
  rfl

theorem isPathChar_of_mem_escapedNames {name : String} (member : name ∈ escapedNames path)
    {char : Char} (isChar : char ∈ name.toList) : Text.IsPathChar char := by
  obtain ⟨plain, -, rfl⟩ := List.mem_map.mp member
  exact Text.isPathChar_of_mem_percentEncode isChar

theorem not_mem_slash_escapedNames : ∀ name ∈ escapedNames path, '/' ∉ name.toList :=
  fun _ member isChar => (isPathChar_of_mem_escapedNames member isChar).whole.1 rfl

theorem text_ofFilePath (notRoot : path ≠ []) :
    (ofFilePath path).text = "file://" ++ slashed (escapedNames path) := by
  rw [ofFilePath_eq notRoot]
  simp [text, authorityText, isFile, pathText, slashed, fileScheme]

/-! ### One path for a URL, one URL for a text -/

theorem eq_of_ofFilePath_eq {other : Path} (notRoot : path ≠ []) (notRootToo : other ≠ [])
    (same : ofFilePath path = ofFilePath other) : path = other := by
  rw [ofFilePath_eq notRoot, ofFilePath_eq notRootToo] at same
  have names : escapedNames path = escapedNames other := by simpa using same
  exact List.map_injective_iff.mpr (Text.percentEncode_injective Text.undoable_fileName) names

theorem eq_of_text_ofFilePath_eq {other : Path} (notRoot : path ≠ []) (notRootToo : other ≠ [])
    (same : (ofFilePath path).text = (ofFilePath other).text) : path = other := by
  rw [text_ofFilePath notRoot, text_ofFilePath notRootToo, String.append_right_inj] at same
  have parts := congrArg FileSystem.partsOf same
  rw [FileSystem.partsOf_slashed not_mem_slash_escapedNames,
    FileSystem.partsOf_slashed not_mem_slash_escapedNames, List.cons.injEq] at parts
  exact List.map_injective_iff.mpr (Text.percentEncode_injective Text.undoable_fileName) parts.2

/-! ### The text is read back -/

/-- Reading starts with the removal of what is not visible. -/
theorem cleaned_of_visible {chars : List Char} (visible : ∀ char ∈ chars, 0x20 < char.toNat) :
    cleaned chars = chars := by
  have noEdge : ∀ char ∈ chars, decide (char.toNat ≤ 0x20) = false :=
    fun char member => decide_eq_false (Nat.not_le.mpr (visible char member))
  have inside : ∀ char ∈ chars, (char ≠ '\t' && char ≠ '\n' && char ≠ '\r') = true := by
    intro char member
    have isVisible := visible char member
    simp only [Bool.and_eq_true, decide_eq_true_eq]
    refine ⟨⟨?_, ?_⟩, ?_⟩ <;> rintro rfl <;> revert isVisible <;> decide
  unfold cleaned
  dsimp only
  rw [Text.dropWhile_of_free noEdge, Text.dropWhile_of_free fun char member =>
    noEdge char (List.mem_reverse.mp member), List.reverse_reverse, List.filter_eq_self]
  exact inside

/-- Names that are no dots are appended as they are. Only a first name can be that of a drive. -/
theorem appendNames_of_plain {front names : List String}
    (noDots : ∀ name ∈ names, isDoubleDot name = false ∧ isSingleDot name = false)
    (drive : front = [] → ∀ name, names.head? = some name → isDriveName name.toList = true →
      String.ofList (name.toList.take 1 ++ [':']) = name) :
    appendNames true front names = front ++ names := by
  induction names generalizing front with
  | nil => rw [appendNames, List.append_nil]
  | cons name rest inductionHypothesis =>
      obtain ⟨⟨notTwo, notOne⟩, inRest⟩ := List.forall_mem_cons.mp noDots
      have appended := @inductionHypothesis (front ++ [name]) inRest
        (fun isEmpty => absurd isEmpty (by simp))
      rw [List.append_assoc, List.singleton_append] at appended
      rw [appendNames, notTwo, notOne]
      simp only [Bool.false_eq_true, if_false]
      split
      · next atFront =>
          simp only [Bool.true_and, Bool.and_eq_true, List.isEmpty_iff] at atFront
          rw [drive atFront.1 name rfl atFront.2]
          exact appended
      · exact appended

theorem dropEmptyFront_of_named {names : List String} (named : names.head? ≠ some "") :
    dropEmptyFront names = names := by
  unfold dropEmptyFront
  split
  · exact absurd rfl named
  · rfl

section Reading

variable {names : List String} (plain : ∀ name ∈ names, ∀ char ∈ name.toList, Text.IsPathChar char)

include plain

private theorem mem_slashed {char : Char} (member : char ∈ (slashed names).toList) :
    char = '/' ∨ Text.IsPathChar char := by
  rw [FileSystem.toList_slashed, List.mem_flatMap] at member
  obtain ⟨piece, isPiece, member⟩ := member
  obtain ⟨name, isName, rfl⟩ := List.mem_map.mp isPiece
  rcases List.mem_cons.mp member with isSlash | inName
  · exact .inl isSlash
  · exact .inr (plain name isName char inName)

/-- Names of characters that stand for themselves are what their text is split into. -/
private theorem splitNames_of_slashed {tail : List Char}
    (isTail : (slashed names).toList = '/' :: tail) : splitNames true tail = names := by
  have inTail : ∀ char ∈ tail, char ≠ '\\' := by
    intro char member
    rcases mem_slashed plain (isTail ▸ List.mem_cons_of_mem '/' member) with rfl | isChar
    · decide
    · exact isChar.whole.2
  have unified : tail.map (fun char => if char = '\\' then '/' else char) = tail :=
    (List.map_congr_left fun char member => if_neg (inTail char member)).trans (List.map_id _)
  have pieces : ∀ piece ∈ names.map String.toList, '/' ∉ piece := by
    intro piece isPiece isSlash
    obtain ⟨name, isName, rfl⟩ := List.mem_map.mp isPiece
    exact (plain name isName '/' isSlash).whole.1 rfl
  have split : Text.splitAll '/' tail = names.map String.toList := by
    have whole := Text.splitAll_flatMap pieces
    rw [← FileSystem.toList_slashed, isTail, Text.splitAll, if_pos rfl] at whole
    exact (List.cons.inj whole).2
  rw [splitNames, if_pos rfl, unified, split, List.map_map]
  refine (List.map_congr_left fun name isName => ?_).trans (List.map_id _)
  simp only [Function.comp_apply, String.ofList_toList, id_eq]
  exact Text.percentEncode_of_pathChars (plain name isName)

private theorem ofFileParts_of_slashed {tail : List Char}
    (isTail : (slashed names).toList = '/' :: tail)
    (noDots : ∀ name ∈ names, isDoubleDot name = false ∧ isSingleDot name = false)
    (first : ∀ name, names.head? = some name → name ≠ "" ∧ (isDriveName name.toList = true →
      String.ofList (name.toList.take 1 ++ [':']) = name)) :
    ofFileParts none [] tail = ⟨fileScheme, "", none, none, .names names, none, none⟩ := by
  have noMark : ∀ char ∈ tail, (!isTailMark char) = true := by
    intro char member
    rcases mem_slashed plain (isTail ▸ List.mem_cons_of_mem '/' member) with rfl | isChar
    · decide
    · rw [isChar.notTailMark]
      rfl
  have nothing : tail.dropWhile (fun char => !isTailMark char) = [] :=
    List.dropWhile_eq_nil_iff.mpr noMark
  have all : tail.takeWhile (fun char => !isTailMark char) = tail :=
    List.takeWhile_eq_self_iff.mpr noMark
  have appended : appendNames true [] names = names :=
    appendNames_of_plain noDots fun _ name isFirst => (first name isFirst).2
  have read : readNames fileScheme [] tail = names := by
    show dropEmptyFront (appendNames true [] (splitNames true tail)) = names
    rw [splitNames_of_slashed plain isTail, appended]
    exact dropEmptyFront_of_named fun isEmpty => (first "" isEmpty).1 rfl
  rw [ofFileParts, nothing, all, read]
  rfl

end Reading

/-- A `file:` URL with a host, even an empty one, is read without its base. -/
theorem readCleaned_of_file (base : Option Url) (rest : List Char) :
    readCleaned base ("file://".toList ++ '/' :: rest) = .ok (ofFileParts none [] rest) :=
  rfl

/-- A name whose escaped form names a drive has no escapes. -/
theorem drive_of_percentEncode {name : String}
    (isDrive : isDriveName (Text.percentEncode Text.escapedInFileName name).toList = true) :
    ∃ letter mark : Char, letter.isAlpha = true ∧ (mark = ':' ∨ mark = '|') ∧
      Text.percentEncode Text.escapedInFileName name = String.ofList [letter, mark] ∧
      name = String.ofList [letter, mark] := by
  obtain ⟨letter, mark, spelled⟩ : ∃ letter mark,
      (Text.percentEncode Text.escapedInFileName name).toList = [letter, mark] := by
    unfold isDriveName at isDrive
    split at isDrive
    · next letter mark spelled => exact ⟨letter, mark, spelled⟩
    · cases isDrive
  have ascii : ∀ char ∈ [letter, mark], char.toNat < 128 := fun char member =>
    Nat.lt_succ_of_lt (Text.isPathChar_of_mem_percentEncode (spelled ▸ member)).ascii
  have escaped : Text.percentEncode Text.escapedInFileName name = String.ofList [letter, mark] := by
    rw [← spelled, String.ofList_toList]
  have decoded := Text.percentDecodeBytes_of_percentEncode Text.undoable_fileName name
  rw [escaped, Text.encodeUtf8_of_ascii ascii, List.map_cons, List.map_cons, List.map_nil,
    Text.percentDecodeBytes, ← List.map_nil, ← List.map_cons, ← List.map_cons,
    ← Text.encodeUtf8_of_ascii ascii] at decoded
  rw [spelled] at isDrive
  simp only [isDriveName, Bool.and_eq_true, Bool.or_eq_true, beq_iff_eq] at isDrive
  exact ⟨letter, mark, isDrive.1, isDrive.2, escaped,
    (Text.encodeUtf8_injective decoded).symm⟩

/-- Whether the URL of a path is read back from its text, and leads back to the path. -/
structure ComesBack (path : Path) : Prop where
  parsed : parse (ofFilePath path).text = .ok (ofFilePath path)
  path_eq : (ofFilePath path).filePath? = some path.text

section Back

variable (notRoot : path ≠ [])

include notRoot

theorem exists_tail : ∃ tail, (slashed (escapedNames path)).toList = '/' :: tail ∧
    (ofFilePath path).text.toList = "file://".toList ++ '/' :: tail := by
  obtain ⟨name, rest, rfl⟩ := List.exists_cons_of_ne_nil notRoot
  refine ⟨_, FileSystem.toList_slashed _, ?_⟩
  rw [text_ofFilePath notRoot, String.toList_append, FileSystem.toList_slashed]
  rfl

theorem visible_text_ofFilePath {char : Char} (member : char ∈ (ofFilePath path).text.toList) :
    0x20 < char.toNat ∧ char.toNat < 0x7F := by
  rw [text_ofFilePath notRoot, String.toList_append, List.mem_append] at member
  rcases member with inScheme | inPath
  · have visible : ("file://".toList.all fun char => 0x20 < char.toNat && char.toNat < 0x7F) := by
      decide
    simpa using List.all_eq_true.mp visible char inScheme
  · rcases mem_slashed (fun name => isPathChar_of_mem_escapedNames) inPath with rfl | isChar
    · decide
    · exact ⟨isChar.visible, isChar.ascii⟩

theorem cleaned_text_ofFilePath :
    cleaned (ofFilePath path).text.toList = (ofFilePath path).text.toList :=
  cleaned_of_visible fun _ member => (visible_text_ofFilePath notRoot member).1

theorem trimText_text_ofFilePath :
    Text.trimText (ofFilePath path).text = (ofFilePath path).text := by
  have free : ∀ char ∈ (ofFilePath path).text.toList, Text.isBlank char = false := by
    intro char member
    obtain ⟨visible, ascii⟩ := visible_text_ofFilePath notRoot member
    simp [Text.isBlank]
    omega
  rw [Text.trimText, Text.trim_of_free free, String.ofList_toList]

/-- Against a base the text of a file's URL is read as it is alone. -/
theorem join_text_ofFilePath (base : Url) :
    base.join (ofFilePath path).text = parse (ofFilePath path).text := by
  obtain ⟨tail, -, isText⟩ := exists_tail notRoot
  rw [join, parse, cleaned_text_ofFilePath notRoot, isText, readCleaned_of_file,
    readCleaned_of_file]

variable (isNames : ∀ name ∈ path, IsName name) (driveFree : path.DriveFree)

include isNames driveFree

theorem endsInDrive_slashed : endsInDrive (slashed path) = false := by
  obtain ⟨front, last, rfl⟩ := (List.eq_nil_or_concat' path).resolve_left notRoot
  have reversed : (slashed (front ++ [last])).toList.reverse =
      last.toList.reverse ++ '/' :: (slashed front).toList.reverse := by
    simp [FileSystem.toList_slashed]
  rw [endsInDrive, reversed]
  cases spelled : last.toList.reverse with
  | nil =>
      have isEmpty : last = "" := by simpa using spelled
      exact absurd isEmpty (isNames last (by simp)).step.1
  | cons mark more =>
      cases more with
      | nil => simp [isDriveName]
      | cons letter start =>
          have isLast : last = String.ofList (start.reverse ++ [letter, mark]) := by
            rw [← String.toList_inj, ← List.reverse_inj, spelled]
            simp
          have noDrive : isDriveName [letter, mark] = false := by
            by_contra isDrive
            simp only [isDriveName, Bool.not_eq_false, Bool.and_eq_true, Bool.or_eq_true,
              beq_iff_eq] at isDrive
            exact driveFree.back start.reverse letter mark isDrive.1 isDrive.2 (by simp [isLast])
          simp [noDrive]

theorem parse_text_ofFilePath : parse (ofFilePath path).text = .ok (ofFilePath path) := by
  obtain ⟨tail, isTail, isText⟩ := exists_tail notRoot
  rw [parse, cleaned_text_ofFilePath notRoot, isText, readCleaned_of_file, ofFilePath_eq notRoot]
  refine congrArg Except.ok (ofFileParts_of_slashed (fun name => isPathChar_of_mem_escapedNames)
    isTail ?_ ?_)
  · intro name member
    obtain ⟨plain, isPlain, rfl⟩ := List.mem_map.mp member
    exact Text.not_dots_percentEncode (isNames plain isPlain)
  · intro name isFirst
    obtain ⟨plain, isPlain, rfl⟩ := Option.map_eq_some_iff.mp (List.head?_map ▸ isFirst)
    have isName := isNames plain (List.mem_of_mem_head? isPlain)
    have ofEmpty : Text.percentEncode Text.escapedInFileName "" = "" := by decide +kernel
    refine ⟨fun isEmpty => isName.step.1 (Text.percentEncode_injective Text.undoable_fileName
      (isEmpty.trans ofEmpty.symm)), fun isDrive => ?_⟩
    obtain ⟨letter, mark, isAlpha, isMark, spelled⟩ := drive_of_percentEncode isDrive
    rcases isMark with rfl | rfl
    · rw [spelled.1, String.toList_ofList]
      rfl
    · exact absurd (spelled.2 ▸ isPlain) (driveFree.front letter isAlpha)

theorem filePath?_ofFilePath_of_driveFree : (ofFilePath path).filePath? = some path.text := by
  rw [filePath?_ofFilePath notRoot, FileSystem.text_eq_slashed notRoot,
    endsInDrive_slashed notRoot isNames driveFree, if_neg Bool.false_ne_true]

theorem comesBack_of_driveFree : ComesBack path :=
  ⟨parse_text_ofFilePath notRoot isNames driveFree,
    filePath?_ofFilePath_of_driveFree notRoot isNames driveFree⟩

end Back

end Url

/-! ## The text of a URL as a key -/

/-- Whether no path in a file system has a NUL, as in every file system that there is: a NUL
ends the path for whoever asks for it. -/
def FileSystem.WithoutNul (files : FileSystem) : Prop :=
  ∀ text ∈ files.entries.keys, '\x00' ∉ text.toList

instance (files : FileSystem) : Decidable files.WithoutNul :=
  inferInstanceAs (Decidable (∀ text ∈ files.entries.keys, '\x00' ∉ text.toList))

namespace Locator

variable {locator : Locator} {files : FileSystem} {path : Path}

/-- The path text of a file leads to the file. -/
theorem Holds.canonicalize_text (holds : locator.Holds files path) (noNul : files.WithoutNul) :
    files.canonicalize path.text = .ok path := by
  have text_eq := FileSystem.text_eq_slashed holds.notRoot
  have noSlash := fun name member => (holds.linkFree.isName name member).whole
  have free : path.text.toList.contains '\x00' = false := by
    have regular := holds.regular
    unfold FileSystem.isFile at regular
    split at regular
    · next content found =>
        rw [FileSystem.entry?, if_neg (by simpa using holds.notRoot)] at found
        simpa using noNul path.text (List.mem_map_of_mem (Dict.mem_toList.mpr found))
    · cases regular
  have absolute : FileSystem.isAbsolute path.text = true := by
    obtain ⟨name, rest, rfl⟩ := List.exists_cons_of_ne_nil holds.notRoot
    rw [FileSystem.isAbsolute, text_eq, FileSystem.toList_slashed]
    rfl
  have parts : FileSystem.partsOf path.text = "" :: path := by
    rw [text_eq, FileSystem.partsOf_slashed noSlash]
  exact FileSystem.canonicalize_of_linkFree free absolute parts holds.linkFree

/-- The text of a file's URL is a key of the file. -/
theorem Holds.leadsTo_text (holds : locator.Holds files path) (noNul : files.WithoutNul)
    (back : Url.ComesBack path) : locator.LeadsTo files (Url.ofFilePath path).text path := by
  refine ⟨path.text, ?_, holds.canonicalize_text noNul⟩
  have notEmpty : (Url.ofFilePath path).text.isEmpty = false := by
    rw [Url.text_ofFilePath holds.notRoot]
    simp
  have isFile : (Url.ofFilePath path).isFile = true := rfl
  rw [pathText, Url.trimText_text_ofFilePath holds.notRoot, notEmpty, back.parsed]
  simp [filePath, isFile, back.path_eq]

theorem Holds.normalize_text (holds : locator.Holds files path) (noNul : files.WithoutNul)
    (back : Url.ComesBack path) :
    locator.normalize files (Url.ofFilePath path).text = .ok (Url.ofFilePath path) :=
  normalize_eq_ok_iff.mpr ⟨path, holds.leadsTo_text noNul back, holds, rfl⟩

/-- Against whatever base, the text of a file's URL is a reference to the file. -/
theorem Holds.resolve_text (holds : locator.Holds files path) (noNul : files.WithoutNul)
    (back : Url.ComesBack path) (base : Option Url) :
    locator.resolve files base (Url.ofFilePath path).text = .ok (Url.ofFilePath path) := by
  have normalized := holds.normalize_text noNul back
  cases base with
  | none => exact normalized
  | some url =>
      obtain ⟨tail, -, isText⟩ := Url.exists_tail holds.notRoot
      have noSlash : (Url.ofFilePath path).text.toList.head? ≠ some '/' := by
        rw [isText]
        show some 'f' ≠ some '/'
        decide
      rw [resolve]
      simp only [noSlash, if_false, Url.join_text_ofFilePath holds.notRoot, back.parsed]
      exact normalized

end Locator

end LivePage
