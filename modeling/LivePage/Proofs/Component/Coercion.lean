import LivePage.Component.Property
import LivePage.Proofs.Json.RoundTrip
import LivePage.Proofs.Number.Display
import LivePage.Proofs.Text.LetterCase

/-!
Contract: attribute texts are converted to canonical values.

Owns:
- which texts each kind of attribute accepts, and to what value;
- white space, and the case of letters, that makes no difference;
- a value is converted again from its display, and read again from its JSON form.

Does not own: which kind an attribute has.
-/

namespace LivePage

/-! ## Case and white space -/

namespace AttributeKind

theorem sameIgnoringCase_iff {left right : String} :
    sameIgnoringCase left right = true ↔ Text.EqualButCase left right := by
  rw [sameIgnoringCase, beq_iff_eq, Text.lowerAscii_eq_iff]

/-- Whether case counts for neither of the texts that a kind accepts. -/
def IgnoresCase : AttributeKind → Prop
  | .boolean => True
  | .choice _ => True
  | _ => False

/-- A kind but text reads nothing but the trimmed text, in which case may not count. -/
theorem coerce?_congr {kind : AttributeKind} (notText : kind ≠ .text) {raw other : String}
    (same : Text.trim other.toList = Text.trim raw.toList) :
    kind.coerce? other = kind.coerce? raw := by
  have sameText : Text.trimText other = Text.trimText raw := congrArg String.ofList same
  cases kind with
  | text => exact absurd rfl notText
  | boolean => simp only [coerce?, sameText]
  | integer => simp only [coerce?, same]
  | number => simp only [coerce?, same]
  | choice choices => simp only [coerce?, sameText]

theorem coerce?_of_equalButCase {kind : AttributeKind} (ignores : kind.IgnoresCase)
    {raw other : String} (same : Text.EqualButCase raw other) :
    kind.coerce? other = kind.coerce? raw := by
  have lower := Text.lowerAscii_eq_iff.mpr same.trimText
  have sameLeft : ∀ word, sameIgnoringCase (Text.trimText other) word =
      sameIgnoringCase (Text.trimText raw) word := fun word => by
    rw [sameIgnoringCase, sameIgnoringCase, lower]
  have sameRight : ∀ word, sameIgnoringCase word (Text.trimText other) =
      sameIgnoringCase word (Text.trimText raw) := fun word => by
    rw [sameIgnoringCase, sameIgnoringCase, lower]
  cases kind with
  | boolean => simp only [coerce?, sameLeft]
  | choice choices => simp only [coerce?, sameRight]
  | text => exact ignores.elim
  | integer => exact ignores.elim
  | number => exact ignores.elim

/-! ## What is accepted -/

theorem coerce?_integer_iff {raw : String} {value : Property} :
    AttributeKind.integer.coerce? raw = some value ↔
      ∃ integer, SpellsInteger (Text.trim raw.toList) integer ∧ -2 ^ 63 ≤ integer ∧
        integer ≤ 2 ^ 63 - 1 ∧ value = .integer integer := by
  have least : leastInt64 = -2 ^ 63 := by decide
  have greatest : greatestInt64 = 2 ^ 63 - 1 := by decide
  simp only [coerce?, Option.map_eq_some_iff, readInt64?_eq_some_iff, and_assoc, least, greatest,
    eq_comm (a := value)]

theorem coerce?_choice_iff {choices : List String} {raw : String} {value : Property} :
    (AttributeKind.choice choices).coerce? raw = some value ↔
      ∃ before chosen after, choices = before ++ chosen :: after ∧
        Text.EqualButCase chosen (Text.trimText raw) ∧
        (∀ other ∈ before, ¬Text.EqualButCase other (Text.trimText raw)) ∧
        value = .text chosen := by
  simp only [coerce?, Option.map_eq_some_iff, List.find?_eq_some_iff_append, sameIgnoringCase_iff,
    Bool.not_eq_true', ← Bool.not_eq_true]
  constructor
  · rintro ⟨chosen, ⟨same, before, after, isChoices, noneBefore⟩, rfl⟩
    exact ⟨before, chosen, after, isChoices, same, noneBefore, rfl⟩
  · rintro ⟨before, chosen, after, isChoices, same, noneBefore, rfl⟩
    exact ⟨chosen, ⟨same, before, after, isChoices, noneBefore⟩, rfl⟩

/-- The values of a kind: integers of the range, and choices that are the first of their form
and have no white space around them. -/
inductive Canonical : AttributeKind → Property → Prop
  | text (content : String) : Canonical .text (.text content)
  | boolean (isTrue : Bool) : Canonical .boolean (.boolean isTrue)
  | integer {integer : Int} (inRange : leastInt64 ≤ integer ∧ integer ≤ greatestInt64) :
      Canonical .integer (.integer integer)
  | number (number : Binary64) : Canonical .number (.number number)
  | choice {before after : List String} {chosen : String}
      (trimmed : Text.EqualButCase chosen (Text.trimText chosen))
      (isFirst : ∀ other ∈ before, ¬Text.EqualButCase other (Text.trimText chosen)) :
      Canonical (.choice (before ++ chosen :: after)) (.text chosen)

theorem canonical_of_coerce? {kind : AttributeKind} {raw : String} {value : Property}
    (coerced : kind.coerce? raw = some value) : kind.Canonical value := by
  cases kind with
  | text =>
      obtain rfl := Option.some.inj coerced
      exact .text raw
  | boolean =>
      simp only [coerce?] at coerced
      split at coerced
      · exact Option.some.inj coerced ▸ .boolean true
      · exact (Option.ite_some_none_eq_some.mp coerced).2 ▸ .boolean false
  | integer =>
      obtain ⟨integer, read, rfl⟩ := Option.map_eq_some_iff.mp coerced
      exact .integer (readInt64?_eq_some_iff.mp read).2
  | number =>
      obtain ⟨number, -, rfl⟩ := Option.map_eq_some_iff.mp coerced
      exact .number number
  | choice choices =>
      obtain ⟨before, chosen, after, rfl, same, isFirst, rfl⟩ := coerce?_choice_iff.mp coerced
      -- A choice that is taken is trimmed, since the text that it was compared to is.
      have trimmed := same.trimText
      rw [Text.trimText_trimText] at trimmed
      exact .choice (same.trans trimmed.symm) fun other member sameOther =>
        isFirst other member (sameOther.trans trimmed)

/-! ## What is written of a value -/

/-- A value is what its display is converted to. -/
theorem Canonical.coerce?_display {kind : AttributeKind} {value : Property}
    (canonical : kind.Canonical value) : kind.coerce? value.display = some value := by
  cases canonical with
  | text content => rfl
  | boolean isTrue => cases isTrue <;> decide +kernel
  | @integer integer inRange =>
      have spells := spellsInteger_toString integer
      have free : Text.trim (toString integer).toList = (toString integer).toList :=
        Text.trim_of_free fun char member => spells.isBlank_of_mem member
      have read := readInt64?_eq_some_iff.mpr ⟨spells, inRange⟩
      show (readInt64? (Text.trim (toString integer).toList)).map Property.integer = _
      rw [free, read]
      rfl
  | number number =>
      have free : Text.trim number.displayText.toList = number.displayText.toList :=
        Text.trim_of_free fun char member => Binary64.isBlank_of_mem_displayText member
      show (readNumber? (Text.trim number.displayText.toList)).map Property.number = _
      rw [free, Binary64.readNumber?_displayText]
      rfl
  | choice trimmed isFirst => exact coerce?_choice_iff.mpr ⟨_, _, _, rfl, trimmed, isFirst, rfl⟩

/-- A value is what its JSON form is read as. -/
theorem Canonical.ofJson?_toJson {kind : AttributeKind} {value : Property}
    (canonical : kind.Canonical value) : Property.ofJson? value.toJson = some value := by
  cases canonical with
  | integer inRange => exact if_pos inRange
  | text content => rfl
  | boolean isTrue => rfl
  | number number => rfl
  | choice trimmed isFirst => rfl

theorem Canonical.wellFormed_toJson {kind : AttributeKind} {value : Property}
    (canonical : kind.Canonical value) : value.toJson.wellFormed = true := by
  cases canonical with
  | integer inRange =>
      have wider : greatestInt64 ≤ Int.ofNat greatestNat64 := by decide
      simp only [Property.toJson, Json.wellFormed, Bool.and_eq_true, decide_eq_true_eq]
      exact ⟨inRange.1, inRange.2.trans wider⟩
  | text content => rfl
  | boolean isTrue => rfl
  | number number => rfl
  | choice trimmed isFirst => rfl

theorem floats_toJson {value : Property} {number : Binary64}
    (member : number ∈ value.toJson.floats) : value = .number number := by
  cases value with
  | number found => rw [List.mem_singleton.mp member]
  | boolean value => cases member
  | integer value => cases member
  | text value => cases member

theorem depth_toJson (value : Property) : value.toJson.depth = 0 := by
  cases value <;> rfl

/-- The JSON text of a value is read as its JSON form, if this is so for a number. -/
theorem Canonical.readText_toJson {kind : AttributeKind} {value : Property}
    (canonical : kind.Canonical value)
    (numbers : ∀ number, value = .number number →
      Json.readText number.jsonText = .ok (.float number)) :
    Json.readText value.toJson.render = .ok value.toJson := by
  have faithful : Json.Faithful value.toJson :=
    ⟨canonical.wellFormed_toJson, fun number member => numbers number (floats_toJson member)⟩
  refine Json.readText_render faithful ?_
  rw [depth_toJson]
  decide

/-! ## Canonical values -/

/-- A value that raw text is converted to is converted to itself from its display, and read back
from its JSON form and text. White space around the raw text makes no difference but for text,
and case makes none for booleans and choices. The integers are those of the signed 64 bit range
in their spellings, and a choice is the first one declared that is the text up to case. -/
theorem coerced_values_are_canonical (kind : AttributeKind) (raw : String) :
    (∀ value, kind.coerce? raw = some value →
      kind.coerce? value.display = some value ∧
      Property.ofJson? value.toJson = some value ∧
      ((∀ number, value = .number number →
          Json.readText number.jsonText = .ok (.float number)) →
        (Json.readText value.toJson.render).toOption.bind Property.ofJson? = some value)) ∧
    (kind ≠ .text → ∀ lead behind : List Char,
      (∀ char ∈ lead, Text.isBlank char = true) → (∀ char ∈ behind, Text.isBlank char = true) →
        kind.coerce? (String.ofList (lead ++ raw.toList ++ behind)) = kind.coerce? raw) ∧
    (kind.IgnoresCase → ∀ other, Text.EqualButCase raw other →
      kind.coerce? other = kind.coerce? raw) ∧
    (kind = .integer → ∀ value, kind.coerce? raw = some value ↔
      ∃ integer, SpellsInteger (Text.trim raw.toList) integer ∧ -2 ^ 63 ≤ integer ∧
        integer ≤ 2 ^ 63 - 1 ∧ value = .integer integer) ∧
    (∀ choices, kind = .choice choices → ∀ value, kind.coerce? raw = some value ↔
      ∃ before chosen after, choices = before ++ chosen :: after ∧
        Text.EqualButCase chosen (Text.trimText raw) ∧
        (∀ other ∈ before, ¬Text.EqualButCase other (Text.trimText raw)) ∧
        value = .text chosen) := by
  refine ⟨fun value coerced => ?_,
    fun notText lead behind leadBlank behindBlank => coerce?_congr notText ?_,
    fun ignores other same => coerce?_of_equalButCase ignores same, ?_, ?_⟩
  · have canonical := canonical_of_coerce? coerced
    refine ⟨canonical.coerce?_display, canonical.ofJson?_toJson, fun numbers => ?_⟩
    rw [canonical.readText_toJson numbers]
    exact canonical.ofJson?_toJson
  · rw [String.toList_ofList]
    exact Text.trim_around leadBlank _ behindBlank
  · rintro rfl value
    exact coerce?_integer_iff
  · rintro choices rfl value
    exact coerce?_choice_iff

/-- Of three choices the first is none that a trimmed text can be; the second is taken, and taken
again from its own display. The least integer is accepted with space around it. -/
theorem padded_choice_is_the_declared_one :
    (AttributeKind.choice [" left ", "LEFT", "Left"]).coerce? "\tleft\n" = some (.text "LEFT") ∧
    (AttributeKind.choice [" left ", "LEFT", "Left"]).coerce? "LEFT" = some (.text "LEFT") ∧
    AttributeKind.integer.coerce? " -9223372036854775808\r\n" =
      some (.integer (-9223372036854775808)) := by
  have taken : (AttributeKind.choice [" left ", "LEFT", "Left"]).coerce? "\tleft\n" =
      some (.text "LEFT") := by
    decide +kernel
  have again := (coerced_values_are_canonical _ _).1 _ taken
  have least : AttributeKind.integer.coerce? "-9223372036854775808" =
      some (.integer (-9223372036854775808)) := by
    decide +kernel
  have around := (coerced_values_are_canonical .integer "-9223372036854775808").2.1
    AttributeKind.noConfusion [' '] ['\r', '\n'] (List.all_eq_true.mp rfl)
    (List.all_eq_true.mp rfl)
  exact ⟨taken, again.1, around.trans least⟩

end AttributeKind

end LivePage
