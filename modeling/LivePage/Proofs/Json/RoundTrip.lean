import LivePage.Proofs.Json.Numbers
import LivePage.Proofs.Json.Strings

/-!
Contract: values come back from their JSON text.

Owns:
- what it takes for a value to be read back: a bound on nesting, integers and
  field orders as texts can hold them, floating point numbers that their own
  text gives back;
- a value is read back in front of anything that cannot continue it, and so
  from a text of its own;
- an object whose fields stand in any order;
- a JSON text has no line breaks.

Does not own: what the values mean.
-/

namespace LivePage.Json

open Text (encodeUtf8)

/-! ## Values, part by part -/

/-- Induction over values, with the items of lists and the fields of objects. -/
theorem induct {motive : Json → Prop} (null : motive .null) (bool : ∀ value, motive (.bool value))
    (int : ∀ value, motive (.int value)) (float : ∀ value, motive (.float value))
    (str : ∀ text, motive (.str text))
    (arr : ∀ items, (∀ item ∈ items, motive item) → motive (.arr items))
    (obj : ∀ fields, (∀ field ∈ fields, motive field.2) → motive (.obj fields)) :
    ∀ value, motive value
  | .null => null
  | .bool value => bool value
  | .int value => int value
  | .float value => float value
  | .str text => str text
  | .arr items => arr items fun item _ => induct null bool int float str arr obj item
  | .obj fields => obj fields fun field _ => induct null bool int float str arr obj field.2
termination_by value => sizeOf value
decreasing_by
  · have := List.sizeOf_lt_of_mem ‹item ∈ items›
    simp only [Json.arr.sizeOf_spec]
    omega
  · have := List.sizeOf_lt_of_mem ‹field ∈ fields›
    have : sizeOf field.2 < sizeOf field := by
      obtain ⟨name, value⟩ := field
      simp only [Prod.mk.sizeOf_spec]
      omega
    simp only [Json.obj.sizeOf_spec]
    omega

mutual

/-- The floating point numbers in a value. -/
def floats : Json → List Binary64
  | .float value => [value]
  | .arr items => floatsItems items
  | .obj fields => floatsFields fields
  | _ => []

def floatsItems : List Json → List Binary64
  | [] => []
  | item :: rest => floats item ++ floatsItems rest

def floatsFields : List (String × Json) → List Binary64
  | [] => []
  | (_, value) :: rest => floats value ++ floatsFields rest

end

theorem floatsItems_eq (items : List Json) : floatsItems items = items.flatMap floats := by
  induction items with
  | nil => rfl
  | cons item rest inductionHypothesis =>
      rw [floatsItems, inductionHypothesis, List.flatMap_cons]

theorem floatsFields_eq (fields : List (String × Json)) :
    floatsFields fields = fields.flatMap (fun field => field.2.floats) := by
  induction fields with
  | nil => rfl
  | cons field rest inductionHypothesis =>
      rw [floatsFields, inductionHypothesis, List.flatMap_cons]

theorem wellFormedItems_eq (items : List Json) :
    wellFormedItems items = items.all wellFormed := by
  induction items with
  | nil => rfl
  | cons item rest inductionHypothesis =>
      rw [wellFormedItems, inductionHypothesis, List.all_cons]

theorem wellFormedFields_eq (fields : List (String × Json)) :
    wellFormedFields fields = fields.all (fun field => field.2.wellFormed) := by
  induction fields with
  | nil => rfl
  | cons field rest inductionHypothesis =>
      rw [wellFormedFields, inductionHypothesis, List.all_cons]

theorem depthItems_lt_iff {items : List Json} {limit : Nat} (positive : 0 < limit) :
    depthItems items < limit ↔ ∀ item ∈ items, item.depth < limit := by
  induction items with
  | nil => simpa [depthItems] using positive
  | cons item rest inductionHypothesis =>
      rw [depthItems, Nat.max_lt, inductionHypothesis, List.forall_mem_cons]

theorem depthFields_lt_iff {fields : List (String × Json)} {limit : Nat} (positive : 0 < limit) :
    depthFields fields < limit ↔ ∀ field ∈ fields, field.2.depth < limit := by
  induction fields with
  | nil => simpa [depthFields] using positive
  | cons field rest inductionHypothesis =>
      rw [depthFields, Nat.max_lt, inductionHypothesis, List.forall_mem_cons]

/-! ## Written forms -/

/-- The bytes of a value's text. -/
def textBytes (value : Json) : Bytes :=
  encodeUtf8 value.render

def fieldBytes (field : String × Json) : Bytes :=
  encodeUtf8 (stringText field.1) ++ ':'.toUInt8 :: textBytes field.2

/-- Written parts with commas between them. -/
def commaBytes : List Bytes → Bytes
  | [] => []
  | first :: rest => first ++ rest.flatMap (fun part => ','.toUInt8 :: part)

theorem commaBytes_cons_cons (first next : Bytes) (rest : List Bytes) :
    commaBytes (first :: next :: rest) = first ++ ','.toUInt8 :: commaBytes (next :: rest) := by
  simp [commaBytes]

theorem length_le_of_mem_commaBytes {parts : List Bytes} {part : Bytes} (member : part ∈ parts) :
    part.length ≤ (commaBytes parts).length := by
  have behind : ∀ rest : List Bytes, part ∈ rest →
      part.length ≤ (rest.flatMap (fun part => ','.toUInt8 :: part)).length := by
    intro rest inRest
    obtain ⟨before, after, rfl⟩ := List.append_of_mem inRest
    simp only [List.flatMap_append, List.flatMap_cons, List.length_append, List.length_cons]
    omega
  cases parts with
  | nil => cases member
  | cons first rest =>
      rw [commaBytes, List.length_append]
      rcases List.mem_cons.mp member with rfl | inRest
      · exact Nat.le_add_right _ _
      · exact Nat.le_trans (behind rest inRest) (Nat.le_add_left _ _)

private theorem encodeUtf8_comma : encodeUtf8 "," = [','.toUInt8] := by decide +kernel

private theorem encodeUtf8_colon : encodeUtf8 ":" = [':'.toUInt8] := by decide +kernel

theorem encodeUtf8_renderItems : ∀ items : List Json,
    encodeUtf8 (renderItems items) = commaBytes (items.map textBytes)
  | [] => by decide +kernel
  | [item] => by simp [renderItems, commaBytes, textBytes]
  | item :: next :: rest => by
      rw [renderItems, Text.encodeUtf8_append, Text.encodeUtf8_append, encodeUtf8_comma,
        encodeUtf8_renderItems (next :: rest)]
      simp [commaBytes_cons_cons, textBytes]

theorem encodeUtf8_renderFields : ∀ fields : List (String × Json),
    encodeUtf8 (renderFields fields) = commaBytes (fields.map fieldBytes)
  | [] => by decide +kernel
  | [(name, value)] => by
      simp [renderFields, commaBytes, fieldBytes, textBytes, Text.encodeUtf8_append,
        encodeUtf8_colon]
  | (name, value) :: next :: rest => by
      rw [renderFields, Text.encodeUtf8_append, encodeUtf8_renderFields (next :: rest)]
      simp [commaBytes_cons_cons, fieldBytes, textBytes, Text.encodeUtf8_append,
        encodeUtf8_colon, encodeUtf8_comma]

theorem textBytes_arr (items : List Json) :
    textBytes (.arr items) =
      '['.toUInt8 :: (commaBytes (items.map textBytes) ++ [']'.toUInt8]) := by
  have opening : encodeUtf8 "[" = ['['.toUInt8] := by decide +kernel
  have closing : encodeUtf8 "]" = [']'.toUInt8] := by decide +kernel
  rw [textBytes, render, Text.encodeUtf8_append, Text.encodeUtf8_append, opening, closing,
    encodeUtf8_renderItems]
  rfl

theorem textBytes_obj (fields : List (String × Json)) :
    textBytes (.obj fields) =
      '\x7b'.toUInt8 :: (commaBytes (fields.map fieldBytes) ++ ['\x7d'.toUInt8]) := by
  have opening : encodeUtf8 "\x7b" = ['\x7b'.toUInt8] := by decide +kernel
  have closing : encodeUtf8 "\x7d" = ['\x7d'.toUInt8] := by decide +kernel
  rw [textBytes, render, Text.encodeUtf8_append, Text.encodeUtf8_append, opening, closing,
    encodeUtf8_renderFields]
  rfl

/-! ## Reading values -/

/-- A value's text starts with no space and no closing bracket, and the value is
read back in front of anything that cannot continue it, with steps for every
byte of its text. -/
structure Reads (value : Json) : Prop where
  starts : ∃ first more, textBytes value = first :: more ∧ isSpace first = false ∧
    first ≠ ']'.toUInt8
  reads : ∀ {fuel limit : Nat} {rest : Bytes}, 2 * (textBytes value).length ≤ fuel →
    value.depth < limit → EndsNumber rest →
      readValue fuel limit (textBytes value ++ rest) = .ok (value, rest)

private theorem reads_of_scalar {value : Json} {first : UInt8} {more : Bytes}
    (written : textBytes value = first :: more) (noSpace : isSpace first = false)
    (noClose : first ≠ ']'.toUInt8) (noList : first ≠ '['.toUInt8)
    (noObject : first ≠ '\x7b'.toUInt8)
    (reads : ∀ rest, EndsNumber rest → readScalar (first :: more ++ rest) = .ok (value, rest)) :
    Reads value := by
  refine ⟨⟨first, more, written, noSpace, noClose⟩, ?_⟩
  intro fuel limit rest enough nested ends
  rw [written] at enough ⊢
  obtain ⟨spare, rfl⟩ : ∃ spare, fuel = spare + 1 := ⟨fuel - 1, by simp at enough; omega⟩
  rw [List.cons_append, readValue_scalar noSpace noList noObject]
  exact reads rest ends

private theorem reads_of_number {value : Json}
    (areNumberChars : ∀ char ∈ value.render.toList, isNumberChar char = true)
    (reads : ∀ rest, EndsNumber rest → readScalar (textBytes value ++ rest) = .ok (value, rest)) :
    Reads value := by
  cases written : textBytes value with
  | nil =>
      have read := reads [] .nil
      rw [written] at read
      cases read
  | cons first more =>
      have member : first ∈ textBytes value := by simp [written]
      obtain ⟨noSpace, noClose, noList, noObject, -⟩ :=
        of_mem_numberBytes (mem_numberBytes areNumberChars member)
      exact reads_of_scalar written noSpace noClose noList noObject (written ▸ reads)

private theorem endsNumber_cons {byte : UInt8} {rest : Bytes}
    (ends : isDigitByte byte = false ∧ byte ≠ '.'.toUInt8 ∧ isExponentMark byte = false) :
    EndsNumber (byte :: rest) := by
  intro first isFirst
  cases isFirst
  exact ends

/-! ### Lists -/

theorem beforeElement_first {first : UInt8} {more : Bytes} (noSpace : isSpace first = false)
    (noClose : first ≠ ']'.toUInt8) :
    beforeElement true (first :: more) = .ok (true, first :: more) := by
  have start : skipSpace (first :: more) = first :: more :=
    skipSpace_of_head fun byte isFirst => Option.some.inj isFirst ▸ noSpace
  simp only [beforeElement, start, if_neg noClose, if_true]

theorem beforeElement_next {first : UInt8} {more : Bytes} (noSpace : isSpace first = false)
    (noClose : first ≠ ']'.toUInt8) :
    beforeElement false (','.toUInt8 :: first :: more) = .ok (true, first :: more) := by
  have start : skipSpace (first :: more) = first :: more :=
    skipSpace_of_head fun byte isFirst => Option.some.inj isFirst ▸ noSpace
  have comma : skipSpace (','.toUInt8 :: first :: more) = ','.toUInt8 :: first :: more := rfl
  have noComma : ','.toUInt8 ≠ ']'.toUInt8 := by decide
  simp only [beforeElement, comma, if_neg noComma, Bool.false_eq_true, if_false, if_true, start,
    if_neg noClose]

/-- One element is read in front of the others. -/
private theorem readElements_step {fuel limit : Nat} {isFirst : Bool} {bytes after : Bytes}
    {item : Json} (before : beforeElement isFirst bytes = .ok (true, textBytes item ++ after))
    (itemReads : Reads item) (enough : 2 * (textBytes item).length ≤ fuel)
    (nested : item.depth < limit) (ends : EndsNumber after) :
    readElements (fuel + 1) limit isFirst bytes =
      (readElements fuel limit false after).map (fun read => (item :: read.1, read.2)) := by
  simp only [readElements, before, itemReads.reads enough nested ends]

theorem readElements_more {items : List Json} (itemsRead : ∀ item ∈ items, Reads item)
    {fuel limit : Nat} (nested : ∀ item ∈ items, item.depth < limit) {rest : Bytes}
    (enough : 2 * ((items.map textBytes).flatMap (fun part => ','.toUInt8 :: part)).length + 2
      ≤ fuel) :
    readElements fuel limit false
        ((items.map textBytes).flatMap (fun part => ','.toUInt8 :: part) ++ ']'.toUInt8 :: rest) =
      .ok (items, rest) := by
  induction items generalizing fuel with
  | nil =>
      obtain ⟨spare, rfl⟩ : ∃ spare, fuel = spare + 1 := ⟨fuel - 1, by omega⟩
      rfl
  | cons item more inductionHypothesis =>
      obtain ⟨itemReads, moreRead⟩ := List.forall_mem_cons.mp itemsRead
      obtain ⟨itemNested, moreNested⟩ := List.forall_mem_cons.mp nested
      obtain ⟨spare, rfl⟩ : ∃ spare, fuel = spare + 1 := ⟨fuel - 1, by omega⟩
      obtain ⟨first, others, written, noSpace, noClose⟩ := itemReads.starts
      simp only [List.map_cons, List.flatMap_cons, List.length_append, List.length_cons,
        List.cons_append, List.append_assoc] at enough ⊢
      rw [readElements_step (by rw [written]; exact beforeElement_next noSpace noClose) itemReads
        (by omega) itemNested ?_, inductionHypothesis moreRead moreNested (by omega)]
      · rfl
      · cases more with
        | nil => exact endsNumber_cons (by decide)
        | cons next last => exact endsNumber_cons (by decide)

theorem readElements_all {items : List Json} (itemsRead : ∀ item ∈ items, Reads item)
    {fuel limit : Nat} (nested : ∀ item ∈ items, item.depth < limit) {rest : Bytes}
    (enough : 2 * (commaBytes (items.map textBytes)).length + 2 ≤ fuel) :
    readElements fuel limit true (commaBytes (items.map textBytes) ++ ']'.toUInt8 :: rest) =
      .ok (items, rest) := by
  obtain ⟨spare, rfl⟩ : ∃ spare, fuel = spare + 1 := ⟨fuel - 1, by omega⟩
  cases items with
  | nil => rfl
  | cons item more =>
      obtain ⟨itemReads, moreRead⟩ := List.forall_mem_cons.mp itemsRead
      obtain ⟨itemNested, moreNested⟩ := List.forall_mem_cons.mp nested
      obtain ⟨first, others, written, noSpace, noClose⟩ := itemReads.starts
      have itemLength : 0 < (textBytes item).length := by simp [written]
      simp only [List.map_cons, commaBytes, List.length_append, List.append_assoc] at enough ⊢
      rw [readElements_step (by rw [written]; exact beforeElement_first noSpace noClose) itemReads
        (by omega) itemNested ?_, readElements_more moreRead moreNested (by omega)]
      · rfl
      · cases more with
        | nil => exact endsNumber_cons (by decide)
        | cons next last => exact endsNumber_cons (by decide)

theorem readValue_arr {items : List Json} (itemsRead : ∀ item ∈ items, Reads item)
    {fuel limit : Nat} (nested : (Json.arr items).depth < limit) {rest : Bytes}
    (enough : 2 * (textBytes (.arr items)).length ≤ fuel) :
    readValue fuel limit (textBytes (.arr items) ++ rest) = .ok (.arr items, rest) := by
  have deep : depthItems items < limit - 1 := by
    rw [depth] at nested
    omega
  have allowed : ¬limit ≤ 1 := by omega
  rw [textBytes_arr] at enough ⊢
  simp only [List.length_cons, List.length_append, List.length_nil] at enough
  obtain ⟨spare, rfl⟩ : ∃ spare, fuel = spare + 1 := ⟨fuel - 1, by omega⟩
  have start : ∀ others, skipSpace ('['.toUInt8 :: others) = '['.toUInt8 :: others :=
    fun _ => rfl
  simp only [List.cons_append, List.append_assoc, List.nil_append, readValue, start, if_true,
    if_neg allowed]
  rw [readElements_all itemsRead ((depthItems_lt_iff (by omega)).mp deep) (by omega)]
  rfl

/-! ### Objects -/

theorem fieldBytes_append (field : String × Json) (after : Bytes) :
    fieldBytes field ++ after = '"'.toUInt8 :: (contentBytes field.1.toList ++
      '"'.toUInt8 :: ':'.toUInt8 :: (textBytes field.2 ++ after)) := by
  rw [fieldBytes, encodeUtf8_stringText]
  simp

theorem beforeMember_first (after : Bytes) :
    beforeMember true ('"'.toUInt8 :: after) = .ok (true, '"'.toUInt8 :: after) := rfl

theorem beforeMember_next (after : Bytes) :
    beforeMember false (','.toUInt8 :: '"'.toUInt8 :: after) =
      .ok (true, '"'.toUInt8 :: after) := rfl

theorem readColon_here (after : Bytes) : readColon (':'.toUInt8 :: after) = .ok after := rfl

/-- One member is read in front of the others. -/
private theorem readMembers_step {fuel limit : Nat} {isFirst : Bool} {bytes after : Bytes}
    {field : String × Json}
    (before : beforeMember isFirst bytes = .ok (true, fieldBytes field ++ after))
    (valueReads : Reads field.2) (enough : 2 * (textBytes field.2).length ≤ fuel)
    (nested : field.2.depth < limit) (ends : EndsNumber after) :
    readMembers (fuel + 1) limit isFirst bytes =
      (readMembers fuel limit false after).map (fun read => (field :: read.1, read.2)) := by
  rw [fieldBytes_append] at before
  simp only [readMembers, before, List.drop_succ_cons, List.drop_zero, readString_contentBytes,
    readColon_here, valueReads.reads enough nested ends]

private theorem length_fieldBytes (field : String × Json) :
    (textBytes field.2).length + 3 ≤ (fieldBytes field).length := by
  have written := congrArg List.length (fieldBytes_append field [])
  simp only [List.append_nil, List.length_cons, List.length_append] at written
  omega

/-- The text of an object is longer than that of each of its values. -/
theorem length_textBytes_field {fields : List (String × Json)} {field : String × Json}
    (member : field ∈ fields) :
    (textBytes field.2).length ≤ (textBytes (.obj fields)).length := by
  have inFields := length_le_of_mem_commaBytes (List.mem_map_of_mem (f := fieldBytes) member)
  have inField := length_fieldBytes field
  rw [textBytes_obj, List.length_cons, List.length_append]
  omega

theorem readMembers_more {fields : List (String × Json)}
    (fieldsRead : ∀ field ∈ fields, Reads field.2) {fuel limit : Nat}
    (nested : ∀ field ∈ fields, field.2.depth < limit) {rest : Bytes}
    (enough : 2 * ((fields.map fieldBytes).flatMap (fun part => ','.toUInt8 :: part)).length + 2
      ≤ fuel) :
    readMembers fuel limit false
        ((fields.map fieldBytes).flatMap (fun part => ','.toUInt8 :: part) ++
          '\x7d'.toUInt8 :: rest) =
      .ok (fields, rest) := by
  induction fields generalizing fuel with
  | nil =>
      obtain ⟨spare, rfl⟩ : ∃ spare, fuel = spare + 1 := ⟨fuel - 1, by omega⟩
      rfl
  | cons field more inductionHypothesis =>
      obtain ⟨valueReads, moreRead⟩ := List.forall_mem_cons.mp fieldsRead
      obtain ⟨valueNested, moreNested⟩ := List.forall_mem_cons.mp nested
      obtain ⟨spare, rfl⟩ : ∃ spare, fuel = spare + 1 := ⟨fuel - 1, by omega⟩
      have longer := length_fieldBytes field
      simp only [List.map_cons, List.flatMap_cons, List.length_append, List.length_cons,
        List.cons_append, List.append_assoc] at enough ⊢
      rw [readMembers_step (by rw [fieldBytes_append]; exact beforeMember_next _) valueReads
        (by omega) valueNested ?_, inductionHypothesis moreRead moreNested (by omega)]
      · rfl
      · cases more with
        | nil => exact endsNumber_cons (by decide)
        | cons next last => exact endsNumber_cons (by decide)

theorem readMembers_all {fields : List (String × Json)}
    (fieldsRead : ∀ field ∈ fields, Reads field.2) {fuel limit : Nat}
    (nested : ∀ field ∈ fields, field.2.depth < limit) {rest : Bytes}
    (enough : 2 * (commaBytes (fields.map fieldBytes)).length + 2 ≤ fuel) :
    readMembers fuel limit true
        (commaBytes (fields.map fieldBytes) ++ '\x7d'.toUInt8 :: rest) =
      .ok (fields, rest) := by
  obtain ⟨spare, rfl⟩ : ∃ spare, fuel = spare + 1 := ⟨fuel - 1, by omega⟩
  cases fields with
  | nil => rfl
  | cons field more =>
      obtain ⟨valueReads, moreRead⟩ := List.forall_mem_cons.mp fieldsRead
      obtain ⟨valueNested, moreNested⟩ := List.forall_mem_cons.mp nested
      have longer := length_fieldBytes field
      simp only [List.map_cons, commaBytes, List.length_append, List.append_assoc] at enough ⊢
      rw [readMembers_step (by rw [fieldBytes_append]; exact beforeMember_first _) valueReads
        (by omega) valueNested ?_, readMembers_more moreRead moreNested (by omega)]
      · rfl
      · cases more with
        | nil => exact endsNumber_cons (by decide)
        | cons next last => exact endsNumber_cons (by decide)

/-- An object is read as its fields, in whatever order they stand. -/
theorem readValue_obj {fields : List (String × Json)}
    (fieldsRead : ∀ field ∈ fields, Reads field.2) {fuel limit : Nat}
    (nested : (Json.obj fields).depth < limit) {rest : Bytes}
    (enough : 2 * (textBytes (.obj fields)).length ≤ fuel) :
    readValue fuel limit (textBytes (.obj fields) ++ rest) = .ok (ofFields fields, rest) := by
  have deep : depthFields fields < limit - 1 := by
    rw [depth] at nested
    omega
  have allowed : ¬limit ≤ 1 := by omega
  rw [textBytes_obj] at enough ⊢
  simp only [List.length_cons, List.length_append, List.length_nil] at enough
  obtain ⟨spare, rfl⟩ : ∃ spare, fuel = spare + 1 := ⟨fuel - 1, by omega⟩
  have start : ∀ others, skipSpace ('\x7b'.toUInt8 :: others) = '\x7b'.toUInt8 :: others :=
    fun _ => rfl
  have noList : '\x7b'.toUInt8 ≠ '['.toUInt8 := by decide
  simp only [List.cons_append, List.append_assoc, List.nil_append, readValue, start, if_true,
    if_neg allowed, if_neg noList]
  rw [readMembers_all fieldsRead ((depthFields_lt_iff (by omega)).mp deep) (by omega)]
  rfl

/-! ## Round trip -/

/-- Values that their texts give back, but for nesting: integers and orders of
fields are those of texts, and every floating point number is given back by its
own text. -/
structure Faithful (value : Json) : Prop where
  wellFormed : value.wellFormed = true
  numbers : ∀ number ∈ value.floats, readText number.jsonText = .ok (.float number)

private def givesBack (number : Binary64) : Bool :=
  match readText number.jsonText with
  | .ok (.float found) => found == number
  | _ => false

private theorem givesBack_iff (number : Binary64) :
    givesBack number = true ↔ readText number.jsonText = .ok (.float number) := by
  unfold givesBack
  split
  · next found read => simp [read]
  · next notFloat =>
      simp only [Bool.false_eq_true, false_iff]
      exact fun read => notFloat _ read

instance (value : Json) : Decidable (Faithful value) :=
  decidable_of_iff (value.wellFormed = true ∧ ∀ number ∈ value.floats, givesBack number = true)
    ⟨fun faithful => ⟨faithful.1, fun number member =>
        (givesBack_iff number).mp (faithful.2 number member)⟩,
      fun faithful => ⟨faithful.1, fun number member =>
        (givesBack_iff number).mpr (faithful.2 number member)⟩⟩

theorem Faithful.item {items : List Json} (faithful : Faithful (.arr items)) :
    ∀ item ∈ items, Faithful item := by
  obtain ⟨wellFormed, numbers⟩ := faithful
  rw [Json.wellFormed, wellFormedItems_eq, List.all_eq_true] at wellFormed
  rw [floats, floatsItems_eq] at numbers
  exact fun item member =>
    ⟨wellFormed item member,
      fun number inItem => numbers number (List.mem_flatMap.mpr ⟨item, member, inItem⟩)⟩

theorem Faithful.field {fields : List (String × Json)} (faithful : Faithful (.obj fields)) :
    ∀ field ∈ fields, Faithful field.2 := by
  obtain ⟨wellFormed, numbers⟩ := faithful
  rw [Json.wellFormed, wellFormedFields_eq, Bool.and_eq_true, List.all_eq_true] at wellFormed
  rw [floats, floatsFields_eq] at numbers
  exact fun field member =>
    ⟨wellFormed.2 field member,
      fun number inField => numbers number (List.mem_flatMap.mpr ⟨field, member, inField⟩)⟩

theorem reads_of_faithful {value : Json} (faithful : Faithful value) : Reads value := by
  induction value using induct with
  | null =>
      have written : textBytes .null =
          'n'.toUInt8 :: ['u'.toUInt8, 'l'.toUInt8, 'l'.toUInt8] := by
        decide +kernel
      exact reads_of_scalar written (by decide) (by decide) (by decide) (by decide) fun _ _ => rfl
  | bool value =>
      cases value with
      | true =>
          have written : textBytes (.bool true) =
              't'.toUInt8 :: ['r'.toUInt8, 'u'.toUInt8, 'e'.toUInt8] := by
            decide +kernel
          exact reads_of_scalar written (by decide) (by decide) (by decide) (by decide)
            fun _ _ => rfl
      | false =>
          have written : textBytes (.bool false) =
              'f'.toUInt8 :: ['a'.toUInt8, 'l'.toUInt8, 's'.toUInt8, 'e'.toUInt8] := by
            decide +kernel
          exact reads_of_scalar written (by decide) (by decide) (by decide) (by decide)
            fun _ _ => rfl
  | int value =>
      have inRange := faithful.wellFormed
      simp only [Json.wellFormed, Bool.and_eq_true, decide_eq_true_eq] at inRange
      have reads := fun rest (ends : EndsNumber rest) => readScalar_int inRange.1 inRange.2 ends
      exact reads_of_number (all_toString value) reads
  | float number =>
      have readsBack := faithful.numbers number (List.mem_singleton_self _)
      exact reads_of_number (all_jsonText number) (readScalar_float readsBack)
  | str text =>
      refine reads_of_scalar (encodeUtf8_stringText text) (by decide) (by decide) (by decide)
        (by decide) fun rest _ => ?_
      show (readString (contentBytes text.toList ++ ['"'.toUInt8] ++ rest)).map _ = _
      rw [List.append_assoc, List.singleton_append, readString_contentBytes]
      rfl
  | arr items inductionHypothesis =>
      have itemsRead := fun item member =>
        inductionHypothesis item member (faithful.item item member)
      exact ⟨⟨_, _, textBytes_arr items, by decide, by decide⟩,
        fun enough nested _ => readValue_arr itemsRead nested enough⟩
  | obj fields inductionHypothesis =>
      have fieldsRead := fun field member =>
        inductionHypothesis field member (faithful.field field member)
      have ascending : Entries.Ascending fields := by
        have wellFormed := faithful.wellFormed
        rw [Json.wellFormed, Bool.and_eq_true, decide_eq_true_eq] at wellFormed
        exact wellFormed.1
      refine ⟨⟨_, _, textBytes_obj fields, by decide, by decide⟩, fun enough nested _ => ?_⟩
      rw [readValue_obj fieldsRead nested enough, ofFields, Entries.ofList_of_ascending ascending]

private theorem readWithin_of_readValue {limit : Nat} {bytes : Bytes} {value : Json}
    (reads : readValue (stepsFor bytes) limit (bytes ++ []) = .ok (value, [])) :
    readWithin limit bytes = .ok value := by
  rw [List.append_nil] at reads
  simp only [readWithin, reads]
  rfl

/-- A value is read back from its text. -/
theorem readText_render {value : Json} (faithful : Faithful value)
    (nested : value.depth < nestingLimit) : readText value.render = .ok value :=
  readWithin_of_readValue
    ((reads_of_faithful faithful).reads (Nat.le_add_right _ 2) nested .nil)

/-- An object is read back from a text with its fields in any order. -/
theorem readText_render_obj {fields : List (String × Json)}
    (faithful : ∀ field ∈ fields, Faithful field.2)
    (nested : (Json.obj fields).depth < nestingLimit) :
    readText (Json.obj fields).render = .ok (ofFields fields) :=
  readWithin_of_readValue
    (readValue_obj (fun field member => reads_of_faithful (faithful field member)) nested
      (Nat.le_add_right _ 2))

/-! ## Line breaks -/

private theorem mem_commaBytes {parts : List Bytes} {byte : UInt8}
    (member : byte ∈ commaBytes parts) : byte = ','.toUInt8 ∨ ∃ part ∈ parts, byte ∈ part := by
  cases parts with
  | nil => cases member
  | cons first rest =>
      rw [commaBytes, List.mem_append, List.mem_flatMap] at member
      rcases member with inFirst | ⟨part, inRest, inPart⟩
      · exact .inr ⟨first, List.mem_cons_self, inFirst⟩
      · rcases List.mem_cons.mp inPart with isComma | inPart
        · exact .inl isComma
        · exact .inr ⟨part, List.mem_cons_of_mem _ inRest, inPart⟩

/-- No byte of a JSON text is a control character, so there are no line breaks. -/
theorem not_control_of_mem_textBytes (value : Json) : ∀ byte ∈ textBytes value, ¬byte < 0x20 := by
  induction value using induct with
  | null => decide +kernel
  | bool value => cases value <;> decide +kernel
  | int value =>
      intro byte member
      exact (of_mem_numberBytes (mem_numberBytes (all_toString value) member)).2.2.2.2
  | float number =>
      intro byte member
      exact (of_mem_numberBytes (mem_numberBytes (all_jsonText number) member)).2.2.2.2
  | str text => exact fun byte member => not_control_of_mem_stringText member
  | arr items inductionHypothesis =>
      intro byte member
      rw [textBytes_arr, List.mem_cons, List.mem_append, List.mem_singleton] at member
      rcases member with rfl | inItems | rfl
      · decide
      · rcases mem_commaBytes inItems with rfl | ⟨part, isPart, inPart⟩
        · decide
        · obtain ⟨item, isItem, rfl⟩ := List.mem_map.mp isPart
          exact inductionHypothesis item isItem byte inPart
      · decide
  | obj fields inductionHypothesis =>
      intro byte member
      rw [textBytes_obj, List.mem_cons, List.mem_append, List.mem_singleton] at member
      rcases member with rfl | inFields | rfl
      · decide
      · rcases mem_commaBytes inFields with rfl | ⟨part, isPart, inPart⟩
        · decide
        · obtain ⟨field, isField, rfl⟩ := List.mem_map.mp isPart
          rw [fieldBytes, List.mem_append, List.mem_cons] at inPart
          rcases inPart with inName | rfl | inValue
          · exact not_control_of_mem_stringText inName
          · decide
          · exact inductionHypothesis field isField byte inValue
      · decide

end LivePage.Json
