import LivePage.Text.Blank
import Mathlib.Data.List.DropRight

/-!
Contract: what is dropped at the ends of a text.

Owns:
- what stays begins, or ends, with a character that is not dropped;
- trimming drops the white space around a word and nothing else.

Does not own: which texts are trimmed.
-/

namespace LivePage.Text

/-! ## Characters of a class -/

theorem dropWhile_cases (drops : Char → Bool) (chars : List Char) :
    chars.dropWhile drops = [] ∨
      ∃ char rest, chars.dropWhile drops = char :: rest ∧ drops char = false := by
  cases left : chars.dropWhile drops with
  | nil => exact Or.inl rfl
  | cons char rest =>
      have stays := List.head?_dropWhile_not drops chars
      rw [left] at stays
      exact Or.inr ⟨char, rest, rfl, stays⟩

theorem rdropWhile_cases (drops : Char → Bool) (chars : List Char) :
    chars.rdropWhile drops = [] ∨
      ∃ rest char, chars.rdropWhile drops = rest ++ [char] ∧ drops char = false := by
  rcases dropWhile_cases drops chars.reverse with nothing | ⟨char, rest, left, stays⟩
  · exact Or.inl (by rw [List.rdropWhile, nothing, List.reverse_nil])
  · exact Or.inr ⟨rest.reverse, char, by rw [List.rdropWhile, left, List.reverse_cons], stays⟩

theorem dropWhile_of_free {drops : Char → Bool} {chars : List Char}
    (free : ∀ char ∈ chars, drops char = false) : chars.dropWhile drops = chars := by
  cases chars with
  | nil => rfl
  | cons char rest => rw [List.dropWhile_cons_of_neg (by simp [free char List.mem_cons_self])]

theorem rdropWhile_append_cons (drops : Char → Bool) {char : Char} (stays : drops char = false)
    (front back : List Char) :
    (front ++ char :: back).rdropWhile drops = front ++ char :: back.rdropWhile drops := by
  induction back using List.reverseRecOn with
  | nil => exact List.rdropWhile_concat_neg _ _ _ (by simp [stays])
  | append_singleton rest last inductionHypothesis =>
      rw [← List.cons_append, ← List.append_assoc, List.rdropWhile_concat, List.rdropWhile_concat]
      split
      · exact inductionHypothesis
      · simp

/-! ## White space -/

theorem isBlank_of_mem_nil : ∀ char ∈ ([] : List Char), isBlank char = true :=
  fun _ member => absurd member List.not_mem_nil

theorem trimStart_append {lead : List Char} (blank : ∀ char ∈ lead, isBlank char = true)
    (rest : List Char) : trimStart (lead ++ rest) = trimStart rest :=
  List.dropWhile_append_of_pos blank

theorem trimStart_cons {char : Char} (notBlank : isBlank char = false) (rest : List Char) :
    trimStart (char :: rest) = char :: rest := by
  rw [trimStart, List.dropWhile_cons_of_neg (by simp [notBlank])]

/-- White space is followed by what is left without it. -/
theorem exists_lead (chars : List Char) :
    ∃ lead, chars = lead ++ trimStart chars ∧ ∀ char ∈ lead, isBlank char = true :=
  ⟨chars.takeWhile isBlank, List.takeWhile_append_dropWhile.symm, fun _ => List.mem_takeWhile_imp⟩

/-- Where white space was dropped already, none is in front. -/
theorem trimStart_of_trimStart_eq_append {chars front rest : List Char}
    (left : trimStart chars = front ++ rest) : trimStart front = front := by
  cases front with
  | nil => rfl
  | cons first more =>
      rcases dropWhile_cases isBlank chars with nothing | ⟨char, others, found, notBlank⟩
      · cases nothing.symm.trans left
      · obtain ⟨rfl, -⟩ := List.cons_eq_cons.mp (found.symm.trans left)
        exact trimStart_cons notBlank more

theorem exists_behind (chars : List Char) :
    ∃ behind, chars = trimEnd chars ++ behind ∧ ∀ char ∈ behind, isBlank char = true :=
  ⟨chars.rtakeWhile isBlank, List.rdropWhile_append_rtakeWhile.symm,
    fun _ => List.mem_rtakeWhile_imp⟩

theorem trimEnd_append (front : List Char) {behind : List Char}
    (blank : ∀ char ∈ behind, isBlank char = true) : trimEnd (front ++ behind) = trimEnd front := by
  rw [trimEnd, List.reverse_append, List.dropWhile_append_of_pos]
  · rfl
  · exact fun char member => blank char (List.mem_reverse.mp member)

theorem trimEnd_of_free {word : List Char} (free : ∀ char ∈ word, isBlank char = false) :
    trimEnd word = word := by
  refine List.rdropWhile_eq_self_iff.mpr (fun nonempty isBlank => ?_)
  rw [free _ (List.getLast_mem nonempty)] at isBlank
  cases isBlank

/-- Only the white space behind a word is dropped. -/
theorem trim_append {word behind : List Char} (nonempty : word ≠ [])
    (free : ∀ char ∈ word, isBlank char = false) (blank : ∀ char ∈ behind, isBlank char = true) :
    trim (word ++ behind) = word := by
  obtain ⟨first, rest, rfl⟩ := List.exists_cons_of_ne_nil nonempty
  rw [trim, List.cons_append, trimStart_cons (free first List.mem_cons_self), ← List.cons_append,
    trimEnd_append _ blank, trimEnd_of_free free]

/-! ## Both ends -/

theorem trim_of_free {word : List Char} (free : ∀ char ∈ word, isBlank char = false) :
    trim word = word := by
  rw [trim, trimStart, dropWhile_of_free free, trimEnd_of_free free]

/-- White space around a text makes no difference to what is left of it. -/
theorem trim_around {lead behind : List Char} (blankLead : ∀ char ∈ lead, isBlank char = true)
    (chars : List Char) (blankBehind : ∀ char ∈ behind, isBlank char = true) :
    trim (lead ++ chars ++ behind) = trim chars := by
  obtain ⟨blanks, isChars, areBlank⟩ := exists_lead chars
  rw [trim, trim, List.append_assoc, trimStart_append blankLead]
  rcases dropWhile_cases isBlank chars with nothing | ⟨first, rest, left, stays⟩
  · have noneBehind : trimStart behind = [] := List.dropWhile_eq_nil_iff.mpr blankBehind
    rw [trimStart, nothing, List.append_nil] at isChars
    rw [isChars, trimStart_append areBlank, noneBehind, ← List.append_nil blanks,
      trimStart_append areBlank]
    rfl
  · rw [trimStart, left] at isChars
    rw [isChars, List.append_assoc, trimStart_append areBlank, trimStart_append areBlank,
      List.cons_append, trimStart_cons stays, trimStart_cons stays, ← List.cons_append,
      trimEnd_append _ blankBehind]

theorem trim_trim (chars : List Char) : trim (trim chars) = trim chars := by
  obtain ⟨lead, isChars, blankLead⟩ := exists_lead chars
  obtain ⟨behind, isRest, blankBehind⟩ := exists_behind (trimStart chars)
  have whole : chars = lead ++ trim chars ++ behind := by
    rw [trim, List.append_assoc, ← isRest, ← isChars]
  have around := trim_around blankLead (trim chars) blankBehind
  rw [← whole] at around
  exact around.symm

theorem trimText_trimText (text : String) : trimText (trimText text) = trimText text := by
  rw [trimText, trimText, String.toList_ofList, trim_trim]

end LivePage.Text
