import LivePage.Markup.Entity

/-!
Contract: references that are written are read as the characters they stand for.

Owns:
- reading of a reference by name;
- unescaping undoes escaping, whichever characters are escaped besides the mark of references;
- marks that are escaped do not occur in what is written.

Does not own: where references may stand.
-/

namespace LivePage.Markup

theorem entityChar_of_named {entity : String × Char} (named : entity ∈ namedEntities)
    (start : Nat) : entityChar start entity.1.toList = .ok entity.2 := by
  simp only [namedEntities, List.mem_cons, List.not_mem_nil, or_false] at named
  rcases named with rfl | rfl | rfl | rfl | rfl <;> rfl

theorem name_free {entity : String × Char} (named : entity ∈ namedEntities) :
    ∀ char ∈ entity.1.toList, (decide (char = '&') || decide (char = ';')) = false := by
  have noMark : entity.1.toList.any (fun char => char = '&' || char = ';') = false := by
    simp only [namedEntities, List.mem_cons, List.not_mem_nil, or_false] at named
    rcases named with rfl | rfl | rfl | rfl | rfl <;> rfl
  exact fun char member => Bool.eq_false_iff.mpr (List.any_eq_false.mp noMark char member)

/-- A reference by name is read as its character. -/
theorem unescapeFrom_reference {entity : String × Char} (named : entity ∈ namedEntities)
    (total fuel offset : Nat) (rest : List Char) :
    ∃ next, unescapeFrom total (fuel + 1) offset (reference entity ++ rest) =
      (unescapeFrom total fuel next rest).map (entity.2 :: ·) := by
  have cut : Text.cutAt? (fun mark => mark = '&' || mark = ';')
      (entity.1.toList ++ ';' :: rest) = some (entity.1.toList, rest) :=
    Text.cutAt?_append_cons (name_free named) rfl rest
  refine ⟨offset + Text.byteCount entity.1.toList + 2, ?_⟩
  rw [reference, List.cons_append, List.append_assoc, List.singleton_append, unescapeFrom,
    if_pos rfl, cut]
  simp only [List.drop_left, List.head?_cons, if_true, entityChar_of_named named]

/-- A character is written as a reference, or as itself if it needs none. -/
theorem escapeChar_cases (escaped : Char → Bool) (char : Char) :
    (∃ entity ∈ namedEntities, entity.2 = char ∧ escapeChar escaped char = reference entity) ∨
      escapeChar escaped char = [char] ∧
        (escaped char = true → ∀ entity ∈ namedEntities, entity.2 ≠ char) := by
  unfold escapeChar
  split
  · next entity found =>
      have isChar := List.find?_some found
      rw [Bool.and_eq_true, beq_iff_eq] at isChar
      exact Or.inl ⟨entity, List.mem_of_find?_eq_some found, isChar.1, rfl⟩
  · next notFound =>
      refine Or.inr ⟨rfl, fun isEscaped entity named isChar => ?_⟩
      have passedOver := List.find?_eq_none.mp notFound entity named
      simp [isChar, isEscaped] at passedOver

theorem unescapeFrom_escape {escaped : Char → Bool} (holds : escaped '&' = true) (total : Nat)
    {fuel : Nat} (offset : Nat) {chars : List Char} (enough : (escape escaped chars).length ≤ fuel) :
    unescapeFrom total fuel offset (escape escaped chars) = .ok chars := by
  induction chars generalizing fuel offset with
  | nil => cases fuel <;> rfl
  | cons char rest inductionHypothesis =>
      rw [escape, List.flatMap_cons, ← escape] at enough ⊢
      rcases escapeChar_cases escaped char with ⟨entity, named, rfl, written⟩ | ⟨written, plain⟩
      · rw [written] at enough ⊢
        cases fuel with
        | zero => simp [reference] at enough
        | succ fuel =>
            obtain ⟨next, read⟩ := unescapeFrom_reference named total fuel offset
              (escape escaped rest)
            have enoughRest : (escape escaped rest).length ≤ fuel := by
              simp only [reference, List.length_append, List.length_cons] at enough
              omega
            rw [read, inductionHypothesis next enoughRest]
            rfl
      · rw [written, List.singleton_append] at enough ⊢
        have notMark : char ≠ '&' := by
          rintro rfl
          exact plain holds ("amp", '&') (by decide) rfl
        cases fuel with
        | zero => simp at enough
        | succ fuel =>
            rw [unescapeFrom, if_neg notMark,
              inductionHypothesis _ (Nat.le_of_succ_le_succ enough)]
            rfl

/-- Unescaping undoes escaping. -/
theorem unescape_escape {escaped : Char → Bool} (holds : escaped '&' = true) (chars : List Char) :
    unescape (escape escaped chars) = .ok chars :=
  unescapeFrom_escape holds _ 0 (Nat.le_succ _)

/-- A mark that has a name, and is in no reference, does not occur where it is escaped. -/
theorem not_mem_escape {escaped : Char → Bool} {mark : Char} (holds : escaped mark = true)
    (isNamed : ∃ entity ∈ namedEntities, entity.2 = mark)
    (inNone : ∀ entity ∈ namedEntities, mark ∉ reference entity) (chars : List Char) :
    mark ∉ escape escaped chars := by
  intro member
  obtain ⟨char, -, inWritten⟩ := List.mem_flatMap.mp member
  rcases escapeChar_cases escaped char with ⟨entity, named, -, written⟩ | ⟨written, plain⟩
  · rw [written] at inWritten
    exact inNone entity named inWritten
  · rw [written, List.mem_singleton] at inWritten
    obtain ⟨entity, named, isMark⟩ := isNamed
    rw [inWritten] at holds isMark
    exact plain holds entity named isMark

end LivePage.Markup
