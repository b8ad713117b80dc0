import LivePage.Location.FileSystem
import LivePage.Proofs.Text.Pieces

/-!
Contract: link-free paths.

Owns:
- paths of names along which no link leads astray;
- a walk from a link-free path ends at one;
- the text of a link-free path leads to that path.

Does not own: which part of a file system pages may see.
-/

namespace LivePage

/-! ## Parts of path texts -/

namespace FileSystem

theorem not_mem_of_mem_partsOf {text part : String} (member : part ∈ partsOf text) :
    '/' ∉ part.toList := by
  rw [partsOf, Text.splitText, List.mem_map] at member
  obtain ⟨piece, isPiece, rfl⟩ := member
  rw [String.toList_ofList]
  exact Text.not_mem_of_mem_splitAll isPiece

/-- The text of names, each behind a slash. -/
def slashed (names : List String) : String :=
  String.join (names.map ("/" ++ ·))

theorem toList_slashed (names : List String) :
    (slashed names).toList = (names.map String.toList).flatMap ('/' :: ·) := by
  induction names with
  | nil => rfl
  | cons name rest inductionHypothesis =>
      rw [slashed, List.map_cons, String.join_cons, String.toList_append, String.toList_append,
        ← slashed, inductionHypothesis]
      rfl

theorem partsOf_slashed {names : List String} (noSlash : ∀ name ∈ names, '/' ∉ name.toList) :
    partsOf (slashed names) = "" :: names := by
  have pieces : ∀ piece ∈ names.map String.toList, '/' ∉ piece := by
    rintro piece member
    obtain ⟨name, isName, rfl⟩ := List.mem_map.mp member
    exact noSlash name isName
  rw [partsOf, Text.splitText, toList_slashed, Text.splitAll_flatMap pieces, List.map_cons,
    List.map_map]
  simp [Function.comp_def]

/-! ## Link-free paths -/

/-- A name that stands for one step down. -/
structure IsName (name : String) : Prop where
  step : name ≠ "" ∧ name ≠ "." ∧ name ≠ ".."
  short : Text.byteLength name ≤ nameLimit
  whole : '/' ∉ name.toList

instance (name : String) : Decidable (IsName name) :=
  decidable_of_iff ((name ≠ "" ∧ name ≠ "." ∧ name ≠ "..") ∧ Text.byteLength name ≤ nameLimit ∧
      '/' ∉ name.toList)
    ⟨fun holds => ⟨holds.1, holds.2.1, holds.2.2⟩,
      fun isName => ⟨isName.step, isName.short, isName.whole⟩⟩

/-- What stands at the path is there and is no link. -/
def Stands (files : FileSystem) (path : Path) : Prop :=
  ∃ entry, files.entry? path = some entry ∧ ∀ target, entry ≠ .link target

instance (files : FileSystem) (path : Path) : Decidable (files.Stands path) :=
  match found : files.entry? path with
  | none => .isFalse (fun ⟨_, isEntry, _⟩ => nomatch found.symm.trans isEntry)
  | some (.link target) =>
      .isFalse (fun ⟨_, isEntry, noLink⟩ =>
        noLink target (Option.some.inj (isEntry.symm.trans found)))
  | some (.file content) => .isTrue ⟨.file content, found, fun _ isLink => nomatch isLink⟩
  | some .directory => .isTrue ⟨.directory, found, fun _ isLink => nomatch isLink⟩

/-- Names that lead down from a path, each from a directory to something that is
no link. -/
def LinkFree (files : FileSystem) (current : Path) : List String → Prop
  | [] => True
  | name :: rest =>
      IsName name ∧ files.entry? current = some .directory ∧ files.Stands (current ++ [name]) ∧
        LinkFree files (current ++ [name]) rest

instance decidableLinkFree (files : FileSystem) (current : Path) :
    (names : List String) → Decidable (files.LinkFree current names)
  | [] => .isTrue trivial
  | name :: rest =>
      let _ := decidableLinkFree files (current ++ [name]) rest
      inferInstanceAs (Decidable (IsName name ∧ files.entry? current = some .directory ∧
        files.Stands (current ++ [name]) ∧ files.LinkFree (current ++ [name]) rest))

variable {files : FileSystem}

theorem linkFree_append {current : Path} {front back : List String} :
    files.LinkFree current (front ++ back) ↔
      files.LinkFree current front ∧ files.LinkFree (current ++ front) back := by
  induction front generalizing current with
  | nil => simp [LinkFree]
  | cons name rest inductionHypothesis =>
      simp only [List.cons_append, LinkFree, inductionHypothesis, List.append_assoc,
        List.nil_append, and_assoc]

theorem LinkFree.isName {current : Path} {names : List String}
    (linkFree : files.LinkFree current names) : ∀ name ∈ names, IsName name := by
  induction names generalizing current with
  | nil => simp
  | cons first rest inductionHypothesis =>
      obtain ⟨isName, -, -, ofRest⟩ := linkFree
      rw [List.forall_mem_cons]
      exact ⟨isName, inductionHypothesis ofRest⟩

theorem LinkFree.dropLast {current : Path} {names : List String}
    (linkFree : files.LinkFree current names) : files.LinkFree current names.dropLast := by
  rcases List.eq_nil_or_concat names with rfl | ⟨front, last, rfl⟩
  · exact linkFree
  · rw [List.concat_eq_append] at linkFree ⊢
    rw [List.dropLast_concat]
    exact (linkFree_append.mp linkFree).1

private theorem walk_step {current : Path} {part : String} (isName : IsName part)
    (isDirectory : files.entry? current = some .directory)
    (stands : files.Stands (current ++ [part])) (links : Nat) (rest : List String) :
    files.walk links current (part :: rest) = files.walk links (current ++ [part]) rest := by
  obtain ⟨notEmpty, notDot, notDots⟩ := isName.step
  obtain ⟨entry, found, noLink⟩ := stands
  have isDown : ¬(part = "" ∨ part = ".") := fun same => same.elim notEmpty notDot
  have notLong := Nat.not_lt.mpr isName.short
  rw [walk, if_neg (Classical.not_not.mpr isDirectory), if_neg isDown, if_neg notDots,
    if_neg notLong, found]
  cases entry with
  | file content => rfl
  | directory => rfl
  | link target => exact absurd rfl (noLink target)

/-- A dot, or nothing between two slashes, is no step. -/
theorem walk_stay {current : Path} {part : String}
    (isDirectory : files.entry? current = some .directory)
    (stays : part = "" ∨ part = ".") (links : Nat) (rest : List String) :
    files.walk links current (part :: rest) = files.walk links current rest := by
  rw [walk, if_neg (Classical.not_not.mpr isDirectory), if_pos stays]

/-- A link is replaced by the parts of its target. -/
theorem walk_link {current : Path} {part target : String} (isName : IsName part)
    (isDirectory : files.entry? current = some .directory)
    (isLink : files.entry? (current ++ [part]) = some (.link target)) (links : Nat)
    (rest : List String) :
    files.walk (links + 1) current (part :: rest) =
      files.walk links (if isAbsolute target then [] else current) (partsOf target ++ rest) := by
  obtain ⟨notEmpty, notDot, notDots⟩ := isName.step
  have isDown : ¬(part = "" ∨ part = ".") := fun same => same.elim notEmpty notDot
  have notLong := Nat.not_lt.mpr isName.short
  rw [walk, if_neg (Classical.not_not.mpr isDirectory), if_neg isDown, if_neg notDots,
    if_neg notLong, isLink]

/-- A walk along link-free names goes straight down. -/
theorem walk_linkFree {current : Path} {names : List String}
    (linkFree : files.LinkFree current names) (links : Nat) (rest : List String) :
    files.walk links current (names ++ rest) = files.walk links (current ++ names) rest := by
  induction names generalizing current with
  | nil => simp
  | cons name more inductionHypothesis =>
      obtain ⟨isName, isDirectory, stands, ofMore⟩ := linkFree
      rw [List.cons_append, walk_step isName isDirectory stands, inductionHypothesis ofMore,
        List.append_assoc]
      rfl

/-- A walk from a link-free path ends at one. -/
theorem linkFree_of_walk {links : Nat} {current path : Path} {parts : List String}
    (walked : files.walk links current parts = .ok path) (linkFree : files.LinkFree [] current)
    (noSlash : ∀ part ∈ parts, '/' ∉ part.toList) : files.LinkFree [] path := by
  fun_induction walk files links current parts with
  | case1 =>
      cases walked
      exact linkFree
  | case2 => cases walked
  | case3 links current part rest isDirectory stays inductionHypothesis =>
      exact inductionHypothesis walked linkFree (List.forall_mem_cons.mp noSlash).2
  | case4 links current rest isDirectory moves inductionHypothesis =>
      exact inductionHypothesis walked linkFree.dropLast (List.forall_mem_cons.mp noSlash).2
  | case5 => cases walked
  | case6 => cases walked
  | case7 => cases walked
  | case8 current part rest isDirectory moves notDots notLong target found fewer
      inductionHypothesis =>
      rw [dite_eq_ite] at inductionHypothesis
      refine inductionHypothesis walked ?_ ?_
      · split
        · trivial
        · exact linkFree
      · intro other member
        rcases List.mem_append.mp member with inTarget | inRest
        · exact not_mem_of_mem_partsOf inTarget
        · exact noSlash other (List.mem_cons_of_mem _ inRest)
  | case9 links current part rest isDirectory moves notDots notLong entry noLink found
      inductionHypothesis =>
      obtain ⟨wholePart, wholeRest⟩ := List.forall_mem_cons.mp noSlash
      have isName : IsName part :=
        ⟨⟨fun same => moves (.inl same), fun same => moves (.inr same), notDots⟩,
          Nat.not_lt.mp notLong, wholePart⟩
      refine inductionHypothesis walked (linkFree_append.mpr ⟨linkFree, ?_⟩) wholeRest
      exact ⟨isName, Classical.not_not.mp isDirectory, ⟨entry, found, noLink⟩, trivial⟩

/-! ## The names of what exists -/

theorem linkFree_of_canonicalize {text : String} {path : Path}
    (canonical : files.canonicalize text = .ok path) : files.LinkFree [] path := by
  unfold canonicalize at canonical
  split at canonical
  · cases canonical
  · split at canonical
    · exact linkFree_of_walk canonical trivial fun part => not_mem_of_mem_partsOf
    · cases canonical

theorem entry?_root : files.entry? [] = some .directory := rfl

theorem text_eq_slashed {path : Path} (notRoot : path ≠ []) : path.text = slashed path := by
  cases path with
  | nil => exact absurd rfl notRoot
  | cons name rest => rfl

/-- An absolute text leads where a walk along its parts leads. -/
theorem canonicalize_of_parts {text : String} {names : List String}
    (noNul : text.toList.contains '\x00' = false) (absolute : isAbsolute text = true)
    (parts : partsOf text = "" :: names) :
    files.canonicalize text = files.walk linkLimit [] names := by
  rw [canonicalize, noNul, if_neg Bool.false_ne_true, if_pos absolute, parts, walk,
    if_neg (Classical.not_not.mpr entry?_root), if_pos (.inl rfl)]

/-- A link-free path that a text spells is where the text leads. -/
theorem canonicalize_of_linkFree {text : String} {path : Path}
    (noNul : text.toList.contains '\x00' = false) (absolute : isAbsolute text = true)
    (parts : partsOf text = "" :: path) (linkFree : files.LinkFree [] path) :
    files.canonicalize text = .ok path := by
  have walked := walk_linkFree linkFree linkLimit []
  rw [List.append_nil, List.nil_append, walk] at walked
  rw [canonicalize_of_parts noNul absolute parts, walked]

/-- The text of names leads where a walk along them leads, if anywhere. -/
theorem canonicalize_slashed {names : List String} {path : Path}
    (noSlash : ∀ name ∈ names, '/' ∉ name.toList)
    (canonical : files.canonicalize (slashed names) = .ok path) :
    files.walk linkLimit [] names = .ok path := by
  unfold canonicalize at canonical
  split at canonical
  · cases canonical
  · split at canonical
    · rw [partsOf_slashed noSlash, walk, if_neg (Classical.not_not.mpr entry?_root),
        if_pos (.inl rfl)] at canonical
      exact canonical
    · cases canonical

/-- The text of a link-free path leads to that path or, with a character that no name has,
nowhere. -/
theorem eq_of_canonicalize_slashed {path found : Path} (linkFree : files.LinkFree [] path)
    (canonical : files.canonicalize (slashed path) = .ok found) : found = path := by
  have noSlash := fun name member => (linkFree.isName name member).whole
  have walked := canonicalize_slashed noSlash canonical
  rw [← List.append_nil path, walk_linkFree linkFree, walk] at walked
  exact (Except.ok.inj walked).symm.trans (by simp)

/-- Behind the text of a file a further slash leads nowhere. -/
theorem canonicalize_slashed_behind_file {path : Path} (linkFree : files.LinkFree [] path)
    (isFile : files.isFile path = true) {found : Path} :
    files.canonicalize (slashed path ++ "/") ≠ .ok found := by
  intro canonical
  have behind : slashed path ++ "/" = slashed (path ++ [""]) := by
    simp [slashed]
  have noSlash : ∀ name ∈ path ++ [""], '/' ∉ name.toList := by
    intro name member
    rcases List.mem_append.mp member with inPath | isLast
    · exact (linkFree.isName name inPath).whole
    · rw [List.mem_singleton.mp isLast]
      decide
  rw [behind] at canonical
  have walked := canonicalize_slashed noSlash canonical
  have notDirectory : files.entry? path ≠ some .directory := by
    intro isDirectory
    rw [FileSystem.isFile, isDirectory] at isFile
    cases isFile
  rw [walk_linkFree linkFree, List.nil_append, walk, if_pos notDirectory] at walked
  cases walked

end FileSystem

end LivePage
