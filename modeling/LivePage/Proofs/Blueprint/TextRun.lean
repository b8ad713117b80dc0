import LivePage.Blueprint.TextRun
import LivePage.Proofs.Text.Ends
import LivePage.Proofs.Text.Pieces
import LivePage.Proofs.Text.Slices

/-!
Contract: what is left of a run of text.

Owns:
- the layers of a text that is not blank: blank lines, the lines that are kept, blank lines;
- the byte offsets of the layers, which are in bounds;
- what is left of a text are its lines between the blank lines at both ends;
- a run leaves nothing behind exactly when it is blank, and what is left stays.

Does not own: where runs begin and end.
-/

namespace LivePage.TextRun

open Text

/-! ## Layers -/

/-- A text that is not blank, from the outside to the inside: blank lines at both ends, then
blanks, and what stands from the first character that is no blank to the last one. -/
structure Layers where
  /-- The blank lines in front, each with its newline. -/
  front : List Char
  indentation : List Char
  body : List Char
  /-- The blanks at the end of the last line that is kept. -/
  blanks : List Char
  /-- The blank lines at the end, each behind a newline. -/
  back : List Char
  frontBlank : ∀ char ∈ front, isBlank char = true
  frontLines : front = [] ∨ ∃ lines, front = lines ++ ['\n']
  indentationBlank : ∀ char ∈ indentation, isBlank char = true
  indentationLine : '\n' ∉ indentation
  bodyBegins : ∃ char rest, body = char :: rest ∧ isBlank char = false
  bodyEnds : ∃ rest char, body = rest ++ [char] ∧ isBlank char = false
  blanksBlank : ∀ char ∈ blanks, isBlank char = true
  blanksLine : '\n' ∉ blanks
  backBlank : ∀ char ∈ back, isBlank char = true
  backLines : back = [] ∨ ∃ lines, back = '\n' :: lines

/-- The lines between the blank lines at both ends. -/
def Layers.kept (layers : Layers) : List Char :=
  layers.indentation ++ (layers.body ++ layers.blanks)

def Layers.text (layers : Layers) : List Char :=
  layers.front ++ (layers.kept ++ layers.back)

/-! ### Every text that is not blank has layers -/

/-- A text ends with a line without a newline, behind lines that have one each. -/
theorem exists_last_line (chars : List Char) :
    ∃ lines line, chars = lines ++ line ∧ (lines = [] ∨ ∃ init, lines = init ++ ['\n']) ∧
      '\n' ∉ line := by
  refine ⟨chars.rdropWhile (· != '\n'), chars.rtakeWhile (· != '\n'),
    List.rdropWhile_append_rtakeWhile.symm, ?_, ?_⟩
  · refine (rdropWhile_cases _ chars).imp id ?_
    rintro ⟨init, char, left, stays⟩
    obtain rfl : char = '\n' := by simpa using stays
    exact ⟨init, left⟩
  · intro member
    exact absurd (List.mem_rtakeWhile_imp member) (by decide)

/-- A text begins with a line without a newline, in front of newlines with a line each. -/
theorem exists_first_line (chars : List Char) :
    ∃ line lines, chars = line ++ lines ∧ '\n' ∉ line ∧
      (lines = [] ∨ ∃ more, lines = '\n' :: more) := by
  refine ⟨chars.takeWhile (· != '\n'), chars.dropWhile (· != '\n'),
    List.takeWhile_append_dropWhile.symm, ?_, ?_⟩
  · intro member
    exact absurd (List.mem_takeWhile_imp member) (by decide)
  · refine (dropWhile_cases _ chars).imp id ?_
    rintro ⟨char, more, left, stays⟩
    obtain rfl : char = '\n' := by simpa using stays
    exact ⟨more, left⟩

/-- A text that is not blank is blank up to a character and from a character on. -/
theorem exists_body {chars : List Char} (notBlank : chars.all isBlank = false) :
    ∃ lead body behind, chars = lead ++ (body ++ behind) ∧
      (∀ char ∈ lead, isBlank char = true) ∧ (∀ char ∈ behind, isBlank char = true) ∧
      (∃ char rest, body = char :: rest ∧ isBlank char = false) ∧
      ∃ rest char, body = rest ++ [char] ∧ isBlank char = false := by
  obtain allBlank | ⟨first, rest, left, firstStays⟩ := dropWhile_cases isBlank chars
  · rw [← Bool.not_eq_true, List.all_eq_true] at notBlank
    exact absurd (List.dropWhile_eq_nil_iff.mp allBlank) notBlank
  obtain nothing | ⟨init, last, ends, lastStays⟩ := rdropWhile_cases isBlank (first :: rest)
  · have firstBlank := List.rdropWhile_eq_nil_iff.mp nothing first List.mem_cons_self
    rw [firstStays] at firstBlank
    cases firstBlank
  have split : init ++ [last] ++ (first :: rest).rtakeWhile isBlank = first :: rest := by
    rw [← ends, List.rdropWhile_append_rtakeWhile]
  refine ⟨chars.takeWhile isBlank, init ++ [last], (first :: rest).rtakeWhile isBlank, ?_,
    fun _ => List.mem_takeWhile_imp, fun _ => List.mem_rtakeWhile_imp, ?_, init, last, rfl,
    lastStays⟩
  · rw [split, ← left, List.takeWhile_append_dropWhile]
  · cases init with
    | nil =>
        obtain ⟨rfl, -⟩ := List.cons_eq_cons.mp split
        exact ⟨last, [], rfl, firstStays⟩
    | cons char more =>
        obtain ⟨rfl, -⟩ := List.cons_eq_cons.mp split
        exact ⟨char, more ++ [last], rfl, firstStays⟩

theorem exists_layers {chars : List Char} (notBlank : chars.all isBlank = false) :
    ∃ layers : Layers, layers.text = chars := by
  obtain ⟨lead, body, behind, rfl, leadBlank, behindBlank, bodyBegins, bodyEnds⟩ :=
    exists_body notBlank
  obtain ⟨front, indentation, rfl, frontLines, indentationLine⟩ := exists_last_line lead
  obtain ⟨blanks, back, rfl, blanksLine, backLines⟩ := exists_first_line behind
  obtain ⟨frontBlank, indentationBlank⟩ := List.forall_mem_append.mp leadBlank
  obtain ⟨blanksBlank, backBlank⟩ := List.forall_mem_append.mp behindBlank
  let layers : Layers :=
    { front := front, indentation, body, blanks, back, frontBlank, frontLines, indentationBlank,
      indentationLine, bodyBegins, bodyEnds, blanksBlank, blanksLine, backBlank, backLines }
  exact ⟨layers, by simp [layers, Layers.text, Layers.kept]⟩

/-! ## Byte offsets -/

theorem lineStart_append {lines line : List Char}
    (isLines : lines = [] ∨ ∃ init, lines = init ++ ['\n']) (isLine : '\n' ∉ line)
    (back : List Char) :
    lineStart (lines ++ (line ++ back)) (byteCount (lines ++ line)) = byteCount lines := by
  have free := beq_eq_false_of_not_mem isLine
  rw [lineStart, ← List.append_assoc, slice_front]
  rcases isLines with rfl | ⟨init, rfl⟩
  · rw [List.nil_append, findLast?_eq_none free]
    rfl
  · rw [List.append_assoc, List.singleton_append, findLast?_append_cons free rfl,
      byteCount_append]
    rfl

theorem lineStop_append {line lines : List Char} (isLine : '\n' ∉ line)
    (isLines : lines = [] ∨ ∃ more, lines = '\n' :: more) (front : List Char) :
    lineStop (front ++ (line ++ lines)) (byteCount front) = byteCount (front ++ line) := by
  have free := beq_eq_false_of_not_mem isLine
  rw [lineStop, sliceFrom_append, byteCount_append front line]
  rcases isLines with rfl | ⟨more, rfl⟩
  · rw [List.append_nil, find?_eq_none free]
    exact byteCount_append front line
  · rw [find?_append_cons free rfl]

theorem offsets?_eq_none {chars : List Char} (blank : ∀ char ∈ chars, isBlank char = true) :
    offsets? chars = none := by
  have free : ∀ char ∈ chars, (!isBlank char) = false := by
    intro char member
    rw [blank char member]
    rfl
  rw [offsets?, find?_eq_none free]

namespace Layers

variable (layers : Layers)

theorem exists_first :
    ∃ first rest, layers.text = (layers.front ++ layers.indentation) ++ first :: rest ∧
      isBlank first = false := by
  obtain ⟨first, rest, begins, stays⟩ := layers.bodyBegins
  exact ⟨first, rest ++ (layers.blanks ++ layers.back), by simp [text, kept, begins], stays⟩

theorem exists_last :
    ∃ upTo last, layers.text = upTo ++ last :: (layers.blanks ++ layers.back) ∧
      layers.front ++ layers.kept = upTo ++ last :: layers.blanks ∧ isBlank last = false := by
  obtain ⟨init, last, ends, stays⟩ := layers.bodyEnds
  exact ⟨layers.front ++ (layers.indentation ++ init), last, by simp [text, kept, ends],
    by simp [kept, ends], stays⟩

theorem lineStart_text :
    lineStart layers.text (byteCount (layers.front ++ layers.indentation)) =
      byteCount layers.front := by
  have split : layers.text = layers.front ++ (layers.indentation ++
      (layers.body ++ (layers.blanks ++ layers.back))) := by
    simp [text, kept]
  rw [split]
  exact lineStart_append layers.frontLines layers.indentationLine _

/-- The first offset is where the body begins, the last one is in front of its last character,
and the lines that are kept are between the other two. -/
theorem exists_offsets :
    ∃ upTo behind, layers.text = upTo ++ behind ∧
      offsets? layers.text = some {
        first := byteCount (layers.front ++ layers.indentation)
        last := byteCount upTo
        start := byteCount layers.front
        stop := byteCount (layers.front ++ layers.kept) } := by
  obtain ⟨first, rest, begins, firstStays⟩ := layers.exists_first
  obtain ⟨upTo, last, ends, keptEnds, lastStays⟩ := layers.exists_last
  refine ⟨upTo, last :: (layers.blanks ++ layers.back), ends, ?_⟩
  have isFirst : find? (fun char => !isBlank char) layers.text =
      some (byteCount (layers.front ++ layers.indentation)) := by
    rw [begins]
    refine find?_append_cons ?_ (by rw [firstStays]; rfl) rest
    intro char member
    rw [List.forall_mem_append.mpr ⟨layers.frontBlank, layers.indentationBlank⟩ char member]
    rfl
  have isLast : findLast? (fun char => !isBlank char) layers.text = some (byteCount upTo) := by
    rw [ends]
    refine findLast?_append_cons ?_ (by rw [lastStays]; rfl) upTo
    intro char member
    rw [List.forall_mem_append.mpr ⟨layers.blanksBlank, layers.backBlank⟩ char member]
    rfl
  have isStop : lineStop layers.text (byteCount upTo) =
      byteCount (layers.front ++ layers.kept) := by
    have noNewline : '\n' ∉ last :: layers.blanks := by
      rintro member
      rcases List.mem_cons.mp member with rfl | inBlanks
      · cases lastStays
      · exact layers.blanksLine inBlanks
    rw [ends, keptEnds]
    exact lineStop_append noNewline layers.backLines upTo
  rw [offsets?, isFirst]
  simp only [isLast, Option.getD_some, layers.lineStart_text, isStop]

/-- The slices that are taken are in bounds. -/
theorem inBounds {offsets : Offsets} (found : offsets? layers.text = some offsets) :
    InBounds layers.text 0 offsets.first ∧
      InBounds layers.text offsets.last (byteCount layers.text) ∧
      InBounds layers.text offsets.start offsets.stop := by
  obtain ⟨upTo, behind, split, offsets_eq⟩ := layers.exists_offsets
  obtain rfl := Option.some.inj (found.symm.trans offsets_eq)
  refine ⟨?_, ?_, ?_⟩
  · obtain ⟨first, rest, begins, -⟩ := layers.exists_first
    rw [begins]
    exact inBounds_front _ _
  · rw [split]
    exact inBounds_from upTo behind
  · have between := inBounds_append layers.front layers.kept layers.back
    rwa [← byteCount_append] at between

/-- What is left of a text are the lines that are kept, without the carriage returns behind. -/
theorem trimBlankLines_text :
    trimBlankLines layers.text = layers.kept.rdropWhile (· == '\r') := by
  obtain ⟨upTo, behind, -, offsets_eq⟩ := layers.exists_offsets
  rw [trimBlankLines, offsets_eq]
  simp only [byteCount_append]
  rw [text, slice_append]
  rfl

/-- The carriage returns behind stand among the blanks at the end of the last line. -/
theorem kept_rdropWhile :
    layers.kept.rdropWhile (· == '\r') =
      layers.indentation ++ (layers.body ++ layers.blanks.rdropWhile (· == '\r')) := by
  obtain ⟨init, last, ends, stays⟩ := layers.bodyEnds
  have noReturn : (last == '\r') = false := by
    refine beq_false_of_ne ?_
    rintro rfl
    cases stays
  rw [kept, ends]
  simp only [List.append_assoc, List.singleton_append]
  rw [← List.append_assoc, rdropWhile_append_cons (· == '\r') noReturn, List.append_assoc]

/-- The layers of what is left of a text. -/
def left : Layers :=
  { layers with
    front := []
    blanks := layers.blanks.rdropWhile (· == '\r')
    back := []
    frontBlank := isBlank_of_mem_nil
    frontLines := Or.inl rfl
    blanksBlank := fun char member =>
      layers.blanksBlank char ((List.rdropWhile_prefix _ _).mem member)
    blanksLine := fun member => layers.blanksLine ((List.rdropWhile_prefix _ _).mem member)
    backBlank := isBlank_of_mem_nil
    backLines := Or.inl rfl }

theorem text_left : layers.left.text = trimBlankLines layers.text := by
  rw [trimBlankLines_text, kept_rdropWhile]
  simp [left, text, kept]

theorem trimBlankLines_idempotent :
    trimBlankLines (trimBlankLines layers.text) = trimBlankLines layers.text := by
  rw [← text_left, trimBlankLines_text, kept_rdropWhile, left]
  simp [text, kept, List.rdropWhile_idempotent]

end Layers

/-! ## Lines -/

/-- The lines of a text without the blank ones at both ends. -/
def keptLines (text : String) : List String :=
  ((splitText '\n' text).dropWhile allBlank).rdropWhile allBlank

/-- A text without the carriage returns at its end. -/
def withoutReturns (text : String) : String :=
  String.ofList (text.toList.rdropWhile (· == '\r'))

theorem dropWhile_rdropWhile_append {drops : List Char → Bool} {front kept back : List (List Char)}
    (frontDrops : ∀ piece ∈ front, drops piece = true)
    (backDrops : ∀ piece ∈ back, drops piece = true)
    (begins : ∃ first rest, kept = first :: rest ∧ drops first = false)
    (ends : ∃ init last, kept = init ++ [last] ∧ drops last = false) :
    ((front ++ (kept ++ back)).dropWhile drops).rdropWhile drops = kept := by
  obtain ⟨first, rest, begins, firstStays⟩ := begins
  obtain ⟨init, last, ends, lastStays⟩ := ends
  have fromFirst : (front ++ (kept ++ back)).dropWhile drops = kept ++ back := by
    rw [List.dropWhile_append_of_pos frontDrops, begins, List.cons_append, List.dropWhile_cons,
      firstStays, if_neg Bool.false_ne_true]
  have toLast : (kept ++ back).rdropWhile drops = kept := by
    have backReverse : ∀ piece ∈ back.reverse, drops piece = true :=
      fun piece member => backDrops piece (List.mem_reverse.mp member)
    rw [List.rdropWhile, List.reverse_append, List.dropWhile_append_of_pos backReverse,
      ← List.rdropWhile, ends, List.rdropWhile_concat_neg _ _ _ (by simp [lastStays])]
  rw [fromFirst, toLast]

/-- Lines of a blank text are blank. -/
theorem all_isBlank_of_mem_splitAll {mark : Char} {chars piece : List Char}
    (blank : ∀ char ∈ chars, isBlank char = true) (member : piece ∈ splitAll mark chars) :
    piece.all isBlank = true :=
  List.all_eq_true.mpr (fun char inPiece => blank char (mem_of_mem_splitAll member inPiece))

namespace Layers

variable (layers : Layers)

theorem exists_first_piece :
    ∃ first rest, splitAll '\n' layers.kept = first :: rest ∧ first.all isBlank = false := by
  obtain ⟨char, rest, begins, stays⟩ := layers.bodyBegins
  have noNewline : '\n' ∉ layers.indentation ++ [char] := by
    intro member
    rcases List.mem_append.mp member with inIndentation | isChar
    · exact layers.indentationLine inIndentation
    · obtain rfl := List.mem_singleton.mp isChar
      cases stays
  cases pieces : splitAll '\n' (rest ++ layers.blanks) with
  | nil => exact absurd pieces (splitAll_ne_nil _ _)
  | cons first others =>
      have split : layers.kept = (layers.indentation ++ [char]) ++ (rest ++ layers.blanks) := by
        simp [kept, begins]
      rw [split, splitAll_append noNewline pieces]
      exact ⟨_, others, rfl, by simp [stays]⟩

theorem exists_last_piece :
    ∃ init last, splitAll '\n' layers.kept = init ++ [last] ∧ last.all isBlank = false := by
  obtain ⟨rest, char, ends, stays⟩ := layers.bodyEnds
  have noNewline : '\n' ∉ char :: layers.blanks := by
    intro member
    rcases List.mem_cons.mp member with rfl | inBlanks
    · cases stays
    · exact layers.blanksLine inBlanks
  obtain ⟨init, last, pieces⟩ := exists_splitAll_append (layers.indentation ++ rest) noNewline
  have split : layers.kept = (layers.indentation ++ rest) ++ char :: layers.blanks := by
    simp [kept, ends]
  rw [split, pieces]
  exact ⟨init, _, rfl, by simp [stays]⟩

theorem splitAll_text :
    ∃ front back, splitAll '\n' layers.text = front ++ (splitAll '\n' layers.kept ++ back) ∧
      (∀ piece ∈ front, piece.all isBlank = true) ∧ ∀ piece ∈ back, piece.all isBlank = true := by
  have ofBack : ∃ back, splitAll '\n' (layers.kept ++ layers.back) =
      splitAll '\n' layers.kept ++ back ∧ ∀ piece ∈ back, piece.all isBlank = true := by
    rcases layers.backLines with nothing | ⟨lines, isBack⟩
    · exact ⟨[], by rw [nothing, List.append_nil, List.append_nil], by simp⟩
    · have linesBlank := (List.forall_mem_cons.mp (isBack ▸ layers.backBlank)).2
      exact ⟨_, by rw [isBack, splitAll_append_cons],
        fun _ => all_isBlank_of_mem_splitAll linesBlank⟩
  obtain ⟨back, split, backBlank⟩ := ofBack
  rcases layers.frontLines with nothing | ⟨lines, isFront⟩
  · exact ⟨[], back, by rw [text, nothing, List.nil_append, split, List.nil_append], by simp,
      backBlank⟩
  · have linesBlank := (List.forall_mem_append.mp (isFront ▸ layers.frontBlank)).1
    refine ⟨splitAll '\n' lines, back, ?_, fun _ => all_isBlank_of_mem_splitAll linesBlank,
      backBlank⟩
    rw [text, isFront, List.append_assoc, List.singleton_append, splitAll_append_cons, split]

/-- The lines that are kept are those between the blank lines at both ends. -/
theorem dropped_splitAll_text :
    ((splitAll '\n' layers.text).dropWhile (·.all isBlank)).rdropWhile (·.all isBlank) =
      splitAll '\n' layers.kept := by
  obtain ⟨front, back, split, frontBlank, backBlank⟩ := layers.splitAll_text
  rw [split]
  exact dropWhile_rdropWhile_append frontBlank backBlank layers.exists_first_piece
    layers.exists_last_piece

end Layers

theorem keptLines_eq (text : String) :
    keptLines text =
      (((splitAll '\n' text.toList).dropWhile (·.all isBlank)).rdropWhile
        (·.all isBlank)).map String.ofList := by
  have same : allBlank ∘ String.ofList = (·.all isBlank) := by
    funext piece
    simp [allBlank]
  rw [keptLines, splitText, List.dropWhile_map, same, List.rdropWhile, ← List.map_reverse,
    List.dropWhile_map, same, ← List.map_reverse, ← List.rdropWhile]

/-- Joining the lines that are kept gives what stands between the blank lines. -/
theorem toList_joinWith_keptLines {text : String} {layers : Layers}
    (isText : layers.text = text.toList) :
    (joinWith "\n" (keptLines text)).toList = layers.kept := by
  rw [toList_joinWith, keptLines_eq, ← isText, layers.dropped_splitAll_text, List.map_map]
  have same : String.toList ∘ String.ofList = id := by
    funext piece
    simp
  rw [same, List.map_id]
  exact intercalate_splitAll '\n' layers.kept

theorem keptLines_of_blank {text : String} (blank : ∀ char ∈ text.toList, isBlank char = true) :
    keptLines text = [] := by
  have nothing : (splitAll '\n' text.toList).dropWhile (·.all isBlank) = [] :=
    List.dropWhile_eq_nil_iff.mpr (fun _ => all_isBlank_of_mem_splitAll blank)
  rw [keptLines_eq, nothing]
  rfl

/-! ## What is left of a text -/

theorem trimBlankLines_of_blank {chars : List Char} (blank : ∀ char ∈ chars, isBlank char = true) :
    trimBlankLines chars = [] := by
  rw [trimBlankLines, offsets?_eq_none blank]

theorem trimmed_eq (text : String) :
    trimmed text = withoutReturns (joinWith "\n" (keptLines text)) := by
  rw [trimmed, withoutReturns]
  cases blank : text.toList.all isBlank with
  | true =>
      rw [List.all_eq_true] at blank
      rw [trimBlankLines_of_blank blank, keptLines_of_blank blank]
      rfl
  | false =>
      obtain ⟨layers, isText⟩ := exists_layers blank
      rw [toList_joinWith_keptLines isText, ← isText, layers.trimBlankLines_text]

theorem isEmpty_trimmed (run : String) : (trimmed run).isEmpty = allBlank run := by
  rw [allBlank, trimmed]
  cases blank : run.toList.all isBlank with
  | true => rw [trimBlankLines_of_blank (List.all_eq_true.mp blank)]; rfl
  | false =>
      obtain ⟨layers, isRun⟩ := exists_layers blank
      obtain ⟨char, rest, begins, -⟩ := layers.bodyBegins
      rw [← isRun, layers.trimBlankLines_text, layers.kept_rdropWhile, begins]
      simp

theorem trimmed_idempotent (text : String) : trimmed (trimmed text) = trimmed text := by
  rw [trimmed, trimmed, String.toList_ofList]
  cases blank : text.toList.all isBlank with
  | true => rw [trimBlankLines_of_blank (List.all_eq_true.mp blank)]; rfl
  | false =>
      obtain ⟨layers, isText⟩ := exists_layers blank
      rw [← isText, layers.trimBlankLines_idempotent]

/-- What is left of a text are its lines between the blank lines at both ends, without the
carriage returns behind the last one. Nothing is left exactly if the text is blank; what is left
begins with the indentation of the first line and ends with the blanks of the last one; and
nothing more is dropped from it. The byte offsets of all slices that are taken are in order and
cut no character apart. -/
theorem trimmed_keeps_lines_between_blank_lines (text : String) :
    trimmed text = withoutReturns (joinWith "\n" (keptLines text)) ∧
      (trimmed text = "" ↔ allBlank text = true) ∧
      (allBlank text = false →
        ∃ layers : Layers, layers.text = text.toList ∧
          (trimmed text).toList =
            layers.indentation ++ (layers.body ++ layers.blanks.rdropWhile (· == '\r'))) ∧
      (∀ offsets, offsets? text.toList = some offsets →
        InBounds text.toList 0 offsets.first ∧
          InBounds text.toList offsets.last (byteCount text.toList) ∧
          InBounds text.toList offsets.start offsets.stop) ∧
      trimmed (trimmed text) = trimmed text := by
  refine ⟨trimmed_eq text, ?_, ?_, ?_, trimmed_idempotent text⟩
  · rw [← isEmpty_trimmed, String.isEmpty_iff]
  · intro notBlank
    obtain ⟨layers, isText⟩ := exists_layers notBlank
    refine ⟨layers, isText, ?_⟩
    rw [trimmed, String.toList_ofList, ← isText, layers.trimBlankLines_text,
      layers.kept_rdropWhile]
  · intro offsets found
    cases blank : text.toList.all isBlank with
    | true =>
        rw [offsets?_eq_none (List.all_eq_true.mp blank)] at found
        cases found
    | false =>
        obtain ⟨layers, isText⟩ := exists_layers blank
        rw [← isText] at found ⊢
        exact layers.inBounds found

/-- Two lines between blank ones, with blanks and a carriage return behind the last one. -/
theorem indented_lines_are_kept :
    trimmed "\n \n  é\n ö \r\n\t\n" = "  é\n ö " ∧
      (∃ layers : Layers, layers.text = "\n \n  é\n ö \r\n\t\n".toList ∧
        "  é\n ö ".toList =
          layers.indentation ++ (layers.body ++ layers.blanks.rdropWhile (· == '\r'))) ∧
      InBounds "\n \n  é\n ö \r\n\t\n".toList 3 13 := by
  have left : trimmed "\n \n  é\n ö \r\n\t\n" = "  é\n ö " := by decide +kernel
  have whole := trimmed_keeps_lines_between_blank_lines "\n \n  é\n ö \r\n\t\n"
  obtain ⟨-, -, layered, bounds, -⟩ := whole
  have layers := layered (by decide +kernel)
  rw [left] at layers
  have between := (bounds ⟨5, 9, 3, 13⟩ (by decide +kernel)).2.2
  exact ⟨left, layers, between⟩

end LivePage.TextRun
