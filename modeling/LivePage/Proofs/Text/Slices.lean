import LivePage.Text.Slice

/-!
Contract: slices of text at byte offsets.

Owns:
- the bytes of texts one behind the other;
- a slice between two parts of a text is what stands between them, and is in bounds;
- the offset of a first and of a last mark, and the parts around it.

Does not own: which slices are taken.
-/

namespace LivePage.Text

/-! ## Bytes -/

theorem byteCount_nil : byteCount [] = 0 := rfl

theorem byteCount_cons (char : Char) (rest : List Char) :
    byteCount (char :: rest) = char.utf8Size + byteCount rest := rfl

theorem byteCount_append (front back : List Char) :
    byteCount (front ++ back) = byteCount front + byteCount back := by
  induction front with
  | nil => rw [List.nil_append, byteCount_nil, Nat.zero_add]
  | cons char rest inductionHypothesis =>
      rw [List.cons_append, byteCount_cons, byteCount_cons, inductionHypothesis, Nat.add_assoc]

theorem byteCount_reverse (chars : List Char) : byteCount chars.reverse = byteCount chars := by
  induction chars with
  | nil => rfl
  | cons char rest inductionHypothesis =>
      rw [List.reverse_cons, byteCount_append, inductionHypothesis, byteCount_cons, byteCount_cons,
        byteCount_nil, Nat.add_zero, Nat.add_comm]

theorem utf8ByteSize_ofList (chars : List Char) :
    (String.ofList chars).utf8ByteSize = byteCount chars := by
  induction chars with
  | nil => rfl
  | cons char rest inductionHypothesis =>
      rw [String.ofList_cons, String.utf8ByteSize_append, inductionHypothesis,
        String.utf8ByteSize_singleton, byteCount_cons]

/-! ## Slices -/

theorem takeBytes_append (front back : List Char) :
    takeBytes (byteCount front) (front ++ back) = front := by
  induction front with
  | nil =>
      cases back with
      | nil => rfl
      | cons char rest =>
          rw [List.nil_append, byteCount_nil, takeBytes, if_neg (Nat.not_le.mpr char.utf8Size_pos)]
  | cons char rest inductionHypothesis =>
      rw [List.cons_append, takeBytes, byteCount_cons, if_pos (Nat.le_add_right _ _),
        Nat.add_sub_cancel_left, inductionHypothesis]

theorem dropBytes_append (front back : List Char) :
    dropBytes (byteCount front) (front ++ back) = back := by
  induction front with
  | nil =>
      cases back with
      | nil => rfl
      | cons char rest =>
          rw [List.nil_append, byteCount_nil, dropBytes, if_neg (Nat.not_le.mpr char.utf8Size_pos)]
  | cons char rest inductionHypothesis =>
      rw [List.cons_append, dropBytes, byteCount_cons, if_pos (Nat.le_add_right _ _),
        Nat.add_sub_cancel_left, inductionHypothesis]

theorem slice_append (front middle back : List Char) :
    slice (front ++ (middle ++ back)) (byteCount front) (byteCount front + byteCount middle) =
      middle := by
  rw [slice, dropBytes_append, Nat.add_sub_cancel_left, takeBytes_append]

theorem slice_front (front back : List Char) :
    slice (front ++ back) 0 (byteCount front) = front := by
  have whole := slice_append [] front back
  rwa [List.nil_append, byteCount_nil, Nat.zero_add] at whole

theorem sliceFrom_append (front back : List Char) :
    sliceFrom (front ++ back) (byteCount front) = back := by
  have whole := slice_append front back []
  rwa [List.append_nil, ← byteCount_append] at whole

theorem isValid_byteCount (front back : List Char) :
    String.Pos.Raw.IsValid (String.ofList (front ++ back)) ⟨byteCount front⟩ := by
  refine String.Pos.Raw.isValid_ofList.mpr ⟨front.length, ?_⟩
  rw [List.take_left, utf8ByteSize_ofList]

/-- Where a part of a text begins and ends, characters begin and end. -/
theorem inBounds_append (front middle back : List Char) :
    InBounds (front ++ (middle ++ back)) (byteCount front) (byteCount front + byteCount middle) where
  ordered := Nat.le_add_right _ _
  startFits := isValid_byteCount front _
  stopFits := by
    rw [← List.append_assoc, ← byteCount_append]
    exact isValid_byteCount (front ++ middle) back

theorem inBounds_front (front back : List Char) :
    InBounds (front ++ back) 0 (byteCount front) := by
  have whole := inBounds_append [] front back
  rwa [List.nil_append, byteCount_nil, Nat.zero_add] at whole

theorem inBounds_from (front back : List Char) :
    InBounds (front ++ back) (byteCount front) (byteCount (front ++ back)) := by
  have whole := inBounds_append front back []
  rwa [List.append_nil, ← byteCount_append] at whole

/-! ## Marks -/

section Marks

variable {isMark : Char → Bool}

theorem find?_eq_none {chars : List Char} (free : ∀ char ∈ chars, isMark char = false) :
    find? isMark chars = none := by
  rw [find?, cutAt?_eq_none free]
  rfl

theorem findLast?_eq_none {chars : List Char} (free : ∀ char ∈ chars, isMark char = false) :
    findLast? isMark chars = none := by
  rw [findLast?, cutAt?_eq_none (fun char member => free char (List.mem_reverse.mp member))]
  rfl

theorem find?_append_cons {before : List Char} {mark : Char}
    (free : ∀ char ∈ before, isMark char = false) (isMarked : isMark mark = true)
    (after : List Char) : find? isMark (before ++ mark :: after) = some (byteCount before) := by
  rw [find?, cutAt?_append_cons free isMarked]
  rfl

theorem findLast?_append_cons {after : List Char} {mark : Char}
    (free : ∀ char ∈ after, isMark char = false) (isMarked : isMark mark = true)
    (before : List Char) : findLast? isMark (before ++ mark :: after) = some (byteCount before) := by
  have freeReverse : ∀ char ∈ after.reverse, isMark char = false :=
    fun char member => free char (List.mem_reverse.mp member)
  rw [findLast?, List.reverse_append, List.reverse_cons, List.append_assoc, List.singleton_append,
    cutAt?_append_cons freeReverse isMarked, Option.map_some, byteCount_reverse]

end Marks

end LivePage.Text
