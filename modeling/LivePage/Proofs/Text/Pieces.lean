import LivePage.Text.Cut

/-!
Contract: the pieces of a text between the occurrences of a mark.

Owns:
- pieces are free of the mark, and made of the characters of the text;
- what is written in front of a text or behind it belongs to its first or last piece;
- the characters of joined parts.

Does not own: what the pieces are for.
-/

namespace LivePage.Text

theorem not_mem_of_mem_splitAll {mark : Char} {chars piece : List Char}
    (member : piece ∈ splitAll mark chars) : mark ∉ piece := by
  induction chars generalizing piece with
  | nil =>
      rw [splitAll, List.mem_singleton] at member
      simp [member]
  | cons char rest inductionHypothesis =>
      rw [splitAll] at member
      split at member
      · rcases List.mem_cons.mp member with rfl | inRest
        · exact List.not_mem_nil
        · exact inductionHypothesis inRest
      · next notMark =>
          split at member
          · rw [List.mem_singleton] at member
            simpa [member] using Ne.symm notMark
          · next first others same =>
              rcases List.mem_cons.mp member with rfl | inRest
              · have noMark : mark ∉ first := inductionHypothesis (by simp [same])
                simpa [noMark] using Ne.symm notMark
              · exact inductionHypothesis (by simp [same, inRest])

theorem mem_of_mem_splitAll {mark : Char} {chars piece : List Char}
    (isPiece : piece ∈ splitAll mark chars) {char : Char} (member : char ∈ piece) :
    char ∈ chars := by
  induction chars generalizing piece with
  | nil =>
      rw [splitAll, List.mem_singleton] at isPiece
      rwa [isPiece] at member
  | cons head rest inductionHypothesis =>
      rw [splitAll] at isPiece
      split at isPiece
      · rcases List.mem_cons.mp isPiece with rfl | inRest
        · cases member
        · exact List.mem_cons_of_mem _ (inductionHypothesis inRest member)
      · split at isPiece
        · rw [List.mem_singleton] at isPiece
          rw [isPiece, List.mem_singleton] at member
          exact member ▸ List.mem_cons_self
        · next first others same =>
            rcases List.mem_cons.mp isPiece with rfl | inRest
            · rcases List.mem_cons.mp member with rfl | inFirst
              · exact List.mem_cons_self
              · exact List.mem_cons_of_mem _
                  (inductionHypothesis (same ▸ List.mem_cons_self) inFirst)
            · exact List.mem_cons_of_mem _
                (inductionHypothesis (same ▸ List.mem_cons_of_mem _ inRest) member)

/-- What stands in front of a mark belongs to the first piece. -/
theorem splitAll_append {mark : Char} {front rest first : List Char} {others : List (List Char)}
    (noMark : mark ∉ front) (split : splitAll mark rest = first :: others) :
    splitAll mark (front ++ rest) = (front ++ first) :: others := by
  induction front with
  | nil => exact split
  | cons char more inductionHypothesis =>
      have notMark : char ≠ mark := fun same => noMark (same ▸ List.mem_cons_self)
      have ofMore := inductionHypothesis (fun member => noMark (List.mem_cons_of_mem _ member))
      rw [List.cons_append, splitAll, if_neg notMark, ofMore]
      rfl

theorem splitAll_of_not_mem {mark : Char} {chars : List Char} (noMark : mark ∉ chars) :
    splitAll mark chars = [chars] := by
  have whole : splitAll mark (chars ++ []) = [chars ++ []] := splitAll_append noMark rfl
  rwa [List.append_nil] at whole

/-- A mark ends the last piece of what is in front of it. -/
theorem splitAll_append_cons (mark : Char) (front back : List Char) :
    splitAll mark (front ++ mark :: back) = splitAll mark front ++ splitAll mark back := by
  induction front with
  | nil => simp [splitAll]
  | cons char rest inductionHypothesis =>
      rw [List.cons_append, splitAll, splitAll, inductionHypothesis]
      split
      · rfl
      · cases pieces : splitAll mark rest with
        | nil => exact absurd pieces (splitAll_ne_nil mark rest)
        | cons piece more => rfl

/-- What stands behind every mark belongs to the last piece. -/
theorem exists_splitAll_append {mark : Char} (front : List Char) {back : List Char}
    (noMark : mark ∉ back) :
    ∃ init last, splitAll mark (front ++ back) = init ++ [last ++ back] := by
  induction front with
  | nil => exact ⟨[], [], splitAll_of_not_mem noMark⟩
  | cons char rest inductionHypothesis =>
      obtain ⟨init, last, split⟩ := inductionHypothesis
      rw [List.cons_append, splitAll, split]
      by_cases isMark : char = mark
      · exact ⟨[] :: init, last, if_pos isMark⟩
      · rw [if_neg isMark]
        cases init with
        | nil => exact ⟨[], char :: last, rfl⟩
        | cons piece more => exact ⟨(char :: piece) :: more, last, rfl⟩

theorem splitAll_flatMap {mark : Char} {pieces : List (List Char)}
    (noMark : ∀ piece ∈ pieces, mark ∉ piece) :
    splitAll mark (pieces.flatMap (mark :: ·)) = [] :: pieces := by
  induction pieces with
  | nil => rfl
  | cons piece rest inductionHypothesis =>
      obtain ⟨ofPiece, ofRest⟩ := List.forall_mem_cons.mp noMark
      rw [List.flatMap_cons, List.cons_append, splitAll, if_pos rfl,
        splitAll_append ofPiece (inductionHypothesis ofRest), List.append_nil]

/-! ## Joined parts -/

theorem toList_joinWith (separator : String) (parts : List String) :
    (joinWith separator parts).toList =
      List.intercalate separator.toList (parts.map String.toList) := by
  induction parts with
  | nil => rfl
  | cons part rest inductionHypothesis =>
      cases rest with
      | nil => simp [joinWith]
      | cons next more =>
          rw [joinWith, String.toList_append, String.toList_append, inductionHypothesis]
          · simp only [List.map_cons, List.intercalate_cons_cons]
          · exact List.cons_ne_nil next more

end LivePage.Text
