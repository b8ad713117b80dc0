/-!
Contract: cutting text at a mark.

Owns:
- cutting a character list at the first character of a class;
- cutting at the first occurrence of a word;
- splitting at every occurrence of a character, and joining;
- the laws of cutting.

Does not own: trimming.
-/

namespace LivePage.Text

/-- The part before the first character that is a mark, and the part after it. -/
def cutAt? (isMark : Char → Bool) : List Char → Option (List Char × List Char)
  | [] => none
  | char :: rest =>
      if isMark char then some ([], rest)
      else (cutAt? isMark rest).map (fun parts => (char :: parts.1, parts.2))

/-- Cuts a string at the first occurrence of a character. -/
def cutText? (mark : Char) (text : String) : Option (String × String) :=
  (cutAt? (· == mark) text.toList).map
    (fun parts => (String.ofList parts.1, String.ofList parts.2))

/-- What follows a leading word, if the list begins with it. -/
def afterWord? {α : Type u} [DecidableEq α] : List α → List α → Option (List α)
  | [], rest => some rest
  | _ :: _, [] => none
  | expected :: word, item :: rest =>
      if expected = item then afterWord? word rest else none

/-- The part before the first occurrence of a word, and the part after it. -/
def cutAtWord? {α : Type u} [DecidableEq α] (word : List α) :
    List α → Option (List α × List α)
  | [] => (afterWord? word []).map (fun rest => ([], rest))
  | item :: rest =>
      match afterWord? word (item :: rest) with
      | some after => some ([], after)
      | none => (cutAtWord? word rest).map (fun parts => (item :: parts.1, parts.2))

/-- The pieces between the occurrences of a character; never empty. -/
def splitAll (mark : Char) : List Char → List (List Char)
  | [] => [[]]
  | char :: rest =>
      if char = mark then [] :: splitAll mark rest
      else
        match splitAll mark rest with
        | [] => [[char]]
        | piece :: pieces => (char :: piece) :: pieces

def splitText (mark : Char) (text : String) : List String :=
  (splitAll mark text.toList).map String.ofList

/-- Writes a separator between the parts. -/
def joinWith (separator : String) : List String → String
  | [] => ""
  | [part] => part
  | part :: rest => part ++ separator ++ joinWith separator rest

def startsWith (word : String) (text : String) : Bool :=
  (afterWord? word.toList text.toList).isSome

/-- ASCII letters in lower case; every other character as it is. -/
def lowerAscii (text : String) : String :=
  String.ofList (text.toList.map Char.toLower)

theorem cutAt?_eq_some {isMark : Char → Bool} {chars before after : List Char}
    (found : cutAt? isMark chars = some (before, after)) :
    ∃ mark, isMark mark = true ∧ chars = before ++ mark :: after ∧
      ∀ char ∈ before, isMark char = false := by
  induction chars generalizing before with
  | nil => simp [cutAt?] at found
  | cons head rest inductionHypothesis =>
      unfold cutAt? at found
      split at found
      · next isHead =>
          cases found
          exact ⟨head, isHead, rfl, by simp⟩
      · next notHead =>
          obtain ⟨parts, cut, same⟩ := Option.map_eq_some_iff.mp found
          cases same
          obtain ⟨mark, isMark, split, free⟩ := inductionHypothesis cut
          refine ⟨mark, isMark, by rw [split]; rfl, ?_⟩
          intro char member
          rcases List.mem_cons.mp member with isHead | inRest
          · subst isHead
            simpa using notHead
          · exact free char inRest

theorem cutAt?_append_cons {isMark : Char → Bool} {before : List Char} {mark : Char}
    (free : ∀ char ∈ before, isMark char = false) (isMarked : isMark mark = true)
    (after : List Char) : cutAt? isMark (before ++ mark :: after) = some (before, after) := by
  induction before with
  | nil => simp [cutAt?, isMarked]
  | cons head rest inductionHypothesis =>
      have notHead : isMark head = false := free head List.mem_cons_self
      have inRest := inductionHypothesis
        (fun char member => free char (List.mem_cons_of_mem _ member))
      simp [cutAt?, notHead, inRest]

theorem cutAt?_eq_none {isMark : Char → Bool} {chars : List Char}
    (free : ∀ char ∈ chars, isMark char = false) : cutAt? isMark chars = none := by
  induction chars with
  | nil => rfl
  | cons head rest inductionHypothesis =>
      rw [cutAt?, free head List.mem_cons_self, if_neg Bool.false_ne_true,
        inductionHypothesis (fun char member => free char (List.mem_cons_of_mem _ member))]
      rfl

/-- A list is cut at the first mark, which is in neither part. -/
theorem cutAt?_eq (isMark : Char → Bool) (chars : List Char) :
    cutAt? isMark chars =
      match chars.dropWhile (fun char => !isMark char) with
      | [] => none
      | _ :: after => some (chars.takeWhile (fun char => !isMark char), after) := by
  induction chars with
  | nil => rfl
  | cons head rest inductionHypothesis =>
      rw [cutAt?]
      cases isHead : isMark head with
      | true => simp [isHead]
      | false =>
          rw [if_neg Bool.false_ne_true, inductionHypothesis]
          cases behind : rest.dropWhile (fun char => !isMark char) <;> simp [isHead, behind]

theorem beq_eq_false_of_not_mem {mark : Char} {chars : List Char} (notMember : mark ∉ chars) :
    ∀ char ∈ chars, (char == mark) = false :=
  fun _ member => beq_false_of_ne (fun isMark => notMember (isMark ▸ member))

/-- A list is cut into two parts exactly when they give the list with the mark between them,
and the first one is free of it. -/
theorem cutAt?_beq_eq_some_iff {mark : Char} {chars before after : List Char} :
    cutAt? (· == mark) chars = some (before, after) ↔
      chars = before ++ mark :: after ∧ mark ∉ before := by
  constructor
  · intro cut
    obtain ⟨found, isMark, split, free⟩ := cutAt?_eq_some cut
    obtain rfl : found = mark := by simpa using isMark
    refine ⟨split, fun member => ?_⟩
    have notMark := free found member
    simp at notMark
  · rintro ⟨rfl, notMember⟩
    exact cutAt?_append_cons (beq_eq_false_of_not_mem notMember) (beq_self_eq_true mark) after

theorem cutText?_eq_some_iff {mark : Char} {text before after : String} :
    cutText? mark text = some (before, after) ↔
      text.toList = before.toList ++ mark :: after.toList ∧ mark ∉ before.toList := by
  rw [← cutAt?_beq_eq_some_iff, cutText?, Option.map_eq_some_iff]
  constructor
  · rintro ⟨parts, cut, same⟩
    obtain ⟨rfl, rfl⟩ := Prod.ext_iff.mp same
    simpa using cut
  · exact fun cut => ⟨_, cut, by simp⟩

theorem afterWord?_eq_some {α : Type u} [DecidableEq α] {word items rest : List α}
    (found : afterWord? word items = some rest) : items = word ++ rest := by
  induction word generalizing items with
  | nil => simpa [afterWord?] using found
  | cons expected word inductionHypothesis =>
      cases items with
      | nil => simp [afterWord?] at found
      | cons item items =>
          unfold afterWord? at found
          split at found
          · next same =>
              subst same
              rw [inductionHypothesis found, List.cons_append]
          · cases found

theorem afterWord?_append {α : Type u} [DecidableEq α] (word rest : List α) :
    afterWord? word (word ++ rest) = some rest := by
  induction word with
  | nil => rfl
  | cons expected word inductionHypothesis =>
      rw [List.cons_append, afterWord?, if_pos rfl, inductionHypothesis]

theorem splitAll_ne_nil (mark : Char) (chars : List Char) : splitAll mark chars ≠ [] := by
  cases chars with
  | nil => simp [splitAll]
  | cons head rest =>
      unfold splitAll
      split
      · simp
      · split <;> simp

/-- Joining the pieces with the mark gives the text back. -/
theorem intercalate_splitAll (mark : Char) (chars : List Char) :
    List.intercalate [mark] (splitAll mark chars) = chars := by
  induction chars with
  | nil => rfl
  | cons head rest inductionHypothesis =>
      unfold splitAll
      split
      · next isMark =>
          subst isMark
          cases pieces : splitAll head rest with
          | nil => exact absurd pieces (splitAll_ne_nil head rest)
          | cons piece more =>
              rw [pieces] at inductionHypothesis
              simp [List.intercalate_cons_cons, inductionHypothesis]
      · cases pieces : splitAll mark rest with
        | nil => exact absurd pieces (splitAll_ne_nil mark rest)
        | cons piece more =>
            rw [pieces] at inductionHypothesis
            cases more with
            | nil => simpa using inductionHypothesis
            | cons next more =>
                simp only [List.intercalate_cons_cons, List.cons_append] at inductionHypothesis ⊢
                rw [inductionHypothesis]

end LivePage.Text
