import LivePage.Proofs.Text.Ends
import LivePage.Text.Cut
import Mathlib.Data.List.Forall2

/-!
Contract: texts that differ in the case of ASCII letters only.

Owns:
- characters that are the same letter, and texts of the same letters;
- these are the texts with the same form in lower case;
- case and white space do not meet.

Does not own: where case counts.
-/

namespace LivePage.Text

/-- The same character, or the same ASCII letter once in upper and once in lower case. -/
inductive SameLetter (left right : Char) : Prop
  | same (isSame : left = right)
  | lowered (isUpper : left.isUpper = true) (isLower : right.toNat = left.toNat + 32)
  | raised (isUpper : right.isUpper = true) (isLower : left.toNat = right.toNat + 32)

/-- Texts that are the same but for the case of ASCII letters. -/
def EqualButCase (left right : String) : Prop :=
  List.Forall₂ SameLetter left.toList right.toList

theorem isUpper_iff {char : Char} : char.isUpper = true ↔ 65 ≤ char.toNat ∧ char.toNat ≤ 90 := by
  refine decide_eq_true_iff.trans ?_
  rw [ge_iff_le, UInt32.le_iff_toNat_le, UInt32.le_iff_toNat_le]
  rfl

theorem toNat_toLower (char : Char) :
    char.toLower.toNat = if char.isUpper then char.toNat + 32 else char.toNat := by
  unfold Char.toLower
  split
  · next isUpper =>
      have isUpper' : char.isUpper = true := decide_eq_true isUpper
      rw [if_pos isUpper']
      show (char.val + ('a'.val - 'A'.val)).toNat = char.val.toNat + 32
      have below := UInt32.le_iff_toNat_le.mp isUpper.2
      have last : 'Z'.val.toNat = 90 := rfl
      have apart : ('a'.val - 'A'.val).toNat = 32 := rfl
      rw [UInt32.toNat_add]
      omega
  · next notUpper =>
      have notUpper' : ¬char.isUpper = true := fun isUpper => notUpper (of_decide_eq_true isUpper)
      rw [if_neg notUpper']

theorem toLower_eq_toLower_iff {left right : Char} :
    left.toLower = right.toLower ↔ SameLetter left right := by
  rw [← Char.toNat_inj, toNat_toLower, toNat_toLower]
  constructor
  · intro same
    by_cases leftUpper : left.isUpper = true <;> by_cases rightUpper : right.isUpper = true
    · rw [if_pos leftUpper, if_pos rightUpper] at same
      exact .same (Char.toNat_inj.mp (by omega))
    · rw [if_pos leftUpper, if_neg rightUpper] at same
      exact .lowered leftUpper same.symm
    · rw [if_neg leftUpper, if_pos rightUpper] at same
      exact .raised rightUpper same
    · rw [if_neg leftUpper, if_neg rightUpper] at same
      exact .same (Char.toNat_inj.mp same)
  · rintro (rfl | ⟨isUpper, isLower⟩ | ⟨isUpper, isLower⟩)
    · rfl
    · have notUpper : ¬right.isUpper = true := by
        rw [isUpper_iff] at isUpper ⊢
        omega
      rw [if_pos isUpper, if_neg notUpper, isLower]
    · have notUpper : ¬left.isUpper = true := by
        rw [isUpper_iff] at isUpper ⊢
        omega
      rw [if_pos isUpper, if_neg notUpper, isLower]

theorem lowerAscii_eq_iff {left right : String} :
    lowerAscii left = lowerAscii right ↔ EqualButCase left right := by
  rw [lowerAscii, lowerAscii, String.ofList_inj, EqualButCase, ← List.forall₂_eq_eq_eq,
    List.forall₂_map_left_iff, List.forall₂_map_right_iff]
  simp only [toLower_eq_toLower_iff]

theorem EqualButCase.symm {left right : String} (same : EqualButCase left right) :
    EqualButCase right left :=
  lowerAscii_eq_iff.mp (lowerAscii_eq_iff.mpr same).symm

theorem EqualButCase.trans {left middle right : String} (first : EqualButCase left middle)
    (second : EqualButCase middle right) : EqualButCase left right :=
  lowerAscii_eq_iff.mp ((lowerAscii_eq_iff.mpr first).trans (lowerAscii_eq_iff.mpr second))

/-! ## White space -/

theorem isBlank_toLower (char : Char) : isBlank char.toLower = isBlank char := by
  by_cases isUpper : char.isUpper = true
  · have lower : char.toLower.toNat = char.toNat + 32 := by rw [toNat_toLower, if_pos isUpper]
    rw [isUpper_iff] at isUpper
    have notBlank : isBlank char = false := by
      simp [isBlank]
      omega
    rw [notBlank]
    simp [isBlank, lower]
    omega
  · have same : char.toLower = char := by
      rw [← Char.toNat_inj, toNat_toLower, if_neg isUpper]
    rw [same]

theorem trim_map_toLower (chars : List Char) :
    trim (chars.map Char.toLower) = (trim chars).map Char.toLower := by
  have sameBlanks : isBlank ∘ Char.toLower = isBlank := funext isBlank_toLower
  simp only [trim, trimEnd, trimStart, List.dropWhile_map, ← List.map_reverse, sameBlanks]

/-- White space is dropped from a text as from its form in lower case. -/
theorem lowerAscii_trimText (text : String) :
    lowerAscii (trimText text) = trimText (lowerAscii text) := by
  rw [lowerAscii, trimText, trimText, lowerAscii, String.toList_ofList, String.toList_ofList,
    trim_map_toLower]

theorem EqualButCase.trimText {left right : String} (same : EqualButCase left right) :
    EqualButCase (trimText left) (Text.trimText right) := by
  rw [← lowerAscii_eq_iff, lowerAscii_trimText, lowerAscii_trimText, lowerAscii_eq_iff.mpr same]

end LivePage.Text
