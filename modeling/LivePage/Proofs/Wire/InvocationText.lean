import LivePage.Proofs.Json.RoundTrip
import LivePage.Wire.Received

/-!
Contract: invocations come back from their texts.

Owns:
- the text of a batch is that of the list of its invocations;
- an invocation is read back from its object form and from its record form,
  which hold the same fields;
- an absent target and an empty one have different texts.

Does not own: which frames are sent.
-/

namespace LivePage.Invocation

open Json (textBytes fieldBytes commaBytes Bytes)
open Text (encodeUtf8)

/-! ## Fields -/

/-- The fields in the order of their names. -/
def sortedFields (invocation : Invocation) : List (String × Json) :=
  [("arg", .arr invocation.arguments), ("fcn", .str invocation.function)] ++
    (match invocation.target with
      | some target => [("tgt", .str target)]
      | none => [])

private theorem put_fields (arguments function : Json) (target : Option Json) :
    Entries.put "arg" arguments (match target with
      | some target => Entries.put "tgt" target (Entries.put "fcn" function [])
      | none => Entries.put "fcn" function []) =
      [("arg", arguments), ("fcn", function)] ++ (match target with
        | some target => [("tgt", target)]
        | none => []) := by
  have argumentsFirst : "arg" < "fcn" := by decide
  have targetLast : ¬"tgt" < "fcn" := by decide
  have others : "fcn" ≠ "tgt" := by decide
  cases target with
  | none => simp only [Entries.put, if_pos argumentsFirst, List.append_nil]
  | some target =>
      simp only [Entries.put, if_pos argumentsFirst, if_neg targetLast, if_neg others,
        List.cons_append, List.nil_append]

theorem toJson_eq (invocation : Invocation) : invocation.toJson = .obj invocation.sortedFields := by
  obtain ⟨function, target, arguments⟩ := invocation
  have written := put_fields (.arr arguments) (.str function) (target.map .str)
  cases target <;> exact congrArg Json.obj written

theorem sortedFields_perm (invocation : Invocation) :
    invocation.sortedFields.Perm invocation.fields := by
  obtain ⟨function, target, arguments⟩ := invocation
  cases target with
  | none => exact .swap _ _ _
  | some target =>
      have moved : ([("arg", Json.arr arguments)] ++
          [("fcn", Json.str function), ("tgt", Json.str target)]).Perm _ := List.perm_append_comm
      exact moved

/-- The record form and the object form hold the same fields. -/
theorem ofFields_fields (invocation : Invocation) :
    Json.ofFields invocation.fields = invocation.toJson := by
  rw [toJson_eq]
  obtain ⟨function, target, arguments⟩ := invocation
  have written := put_fields (.arr arguments) (.str function) (target.map .str)
  cases target <;> exact congrArg Json.obj written

theorem ofJson_toJson (invocation : Invocation) : ofJson invocation.toJson = .ok invocation := by
  rw [toJson_eq]
  obtain ⟨function, target, arguments⟩ := invocation
  cases target <;> rfl

theorem field?_target (invocation : Invocation) :
    invocation.toJson.field? "tgt" = invocation.target.map .str := by
  rw [toJson_eq]
  obtain ⟨function, target, arguments⟩ := invocation
  cases target <;> rfl

/-! ## Batches -/

/-- What the loop writes behind some invocations. -/
private theorem writeBatch_more (payload : String) {count : Nat} (positive : 0 < count)
    (invocations : List Invocation) :
    writeBatch payload count invocations =
      (payload ++ String.join (invocations.map (fun invocation => "," ++ invocation.encode)),
        count + invocations.length) := by
  induction invocations generalizing payload count with
  | nil => simp [writeBatch]
  | cons invocation rest inductionHypothesis =>
      rw [writeBatch, if_neg (Nat.pos_iff_ne_zero.mp positive),
        inductionHypothesis _ (Nat.succ_pos count), List.map_cons, String.join_cons,
        List.length_cons, Nat.succ_add, Nat.add_succ]
      simp [String.append_assoc, String.push_eq_append]

private theorem renderItems_cons (first : Json) (rest : List Json) :
    Json.renderItems (first :: rest) =
      first.render ++ String.join (rest.map (fun item => "," ++ item.render)) := by
  induction rest generalizing first with
  | nil => simp [Json.renderItems]
  | cons next more inductionHypothesis =>
      rw [Json.renderItems, inductionHypothesis, List.map_cons, String.join_cons]
      simp [String.append_assoc]

/-- The text of a batch is that of the list of its invocations. -/
theorem encodeBatch_cons (first : Invocation) (rest : List Invocation) :
    encodeBatch (first :: rest) = some (Json.arr ((first :: rest).map toJson)).render := by
  have written : writeBatch "" 0 (first :: rest) = ("[" ++ first.encode ++
      String.join (rest.map (fun invocation => "," ++ invocation.encode)), 1 + rest.length) := by
    rw [writeBatch, if_pos rfl, writeBatch_more _ (Nat.succ_pos 0)]
    rfl
  rw [encodeBatch, batchText, written, if_neg (by omega), Json.render, List.map_cons,
    renderItems_cons, List.map_map]
  simp [String.append_assoc, String.push_eq_append, encode, Function.comp_def]

/-! ## Reading one member -/

private theorem startsWith_quote (text : String) (after : Bytes) :
    textBytes (.str text) ++ after = '"'.toUInt8 ::
      (Json.contentBytes text.toList ++ '"'.toUInt8 :: after) := by
  show encodeUtf8 (Json.stringText text) ++ after = _
  rw [Json.encodeUtf8_stringText]
  simp

theorem readName_text (text : String) (after : Bytes) :
    readName (textBytes (.str text) ++ after) = .ok (text, after) := by
  rw [startsWith_quote]
  exact Json.readString_contentBytes text after

theorem readTarget_text (text : String) (after : Bytes) :
    readTarget (textBytes (.str text) ++ after) = .ok (some text, after) := by
  have named := readName_text text after
  rw [startsWith_quote] at named ⊢
  have noSpace : ∀ rest, Json.skipSpace ('"'.toUInt8 :: rest) = '"'.toUInt8 :: rest :=
    fun _ => rfl
  have notNull : '"'.toUInt8 ≠ 'n'.toUInt8 := by decide
  simp only [readTarget, noSpace, if_neg notNull, named]
  rfl

theorem readArguments_items {steps : Nat} {items : List Json}
    (faithful : Json.Faithful (.arr items)) (nested : Json.depthItems items < Json.nestingLimit - 2)
    (enough : 2 * (textBytes (.arr items)).length ≤ steps) (after : Bytes) :
    readArguments steps (textBytes (.arr items) ++ after) = .ok (items, after) := by
  rw [Json.textBytes_arr] at enough ⊢
  simp only [List.length_cons, List.length_append, List.length_nil] at enough
  have itemsRead := fun item member => Json.reads_of_faithful (faithful.item item member)
  have itemsNested := (Json.depthItems_lt_iff (by decide)).mp nested
  have noSpace : ∀ rest, Json.skipSpace ('['.toUInt8 :: rest) = '['.toUInt8 :: rest :=
    fun _ => rfl
  simp only [List.cons_append, List.append_assoc, List.nil_append, readArguments, noSpace, if_true]
  exact Json.readElements_all itemsRead itemsNested (by omega)

/-! ## Reading an object form -/

/-- Members that are read one after another, none of them twice. -/
inductive Fills (steps : Nat) : Fields → List (String × Json) → Fields → Prop where
  | done (fields : Fields) : Fills steps fields [] fields
  | next {fields more last : Fields} {field : String × Json} {others : List (String × Json)}
      (unset : fields.has field.1 = false)
      (reads : ∀ after, fields.readMember steps field.1 (textBytes field.2 ++ after) =
        .ok (more, after))
      (rest : Fills steps more others last) : Fills steps fields (field :: others) last

/-- One member is read in front of the others. -/
private theorem readObjectForm_step {steps fuel : Nat} {isFirst : Bool} {fields more : Fields}
    {bytes after : Bytes} {field : String × Json}
    (before : Json.beforeMember isFirst bytes = .ok (true, fieldBytes field ++ after))
    (unset : fields.has field.1 = false)
    (reads : fields.readMember steps field.1 (textBytes field.2 ++ after) = .ok (more, after)) :
    readObjectForm steps (fuel + 1) isFirst fields bytes =
      readObjectForm steps fuel false more after := by
  rw [Json.fieldBytes_append] at before
  simp only [readObjectForm, before, bind, Except.bind, if_true, List.drop_succ_cons,
    List.drop_zero, Json.readString_contentBytes, unset, Bool.false_eq_true, if_false, pure,
    Except.pure, Json.readColon_here, reads]

private theorem readObjectForm_close {steps fuel : Nat} {isFirst : Bool} {fields : Fields}
    {function : String} (isSet : fields.function = some function) (rest : Bytes) :
    readObjectForm steps (fuel + 1) isFirst fields ('\x7d'.toUInt8 :: rest) =
      .ok (⟨function, fields.target.getD none, fields.arguments.getD []⟩, rest) := by
  have close : Json.beforeMember isFirst ('\x7d'.toUInt8 :: rest) =
      .ok (false, '\x7d'.toUInt8 :: rest) := rfl
  simp only [readObjectForm, close, bind, Except.bind, Bool.false_eq_true, if_false, isSet, pure,
    Except.pure, List.drop_succ_cons, List.drop_zero]

theorem readObjectForm_more {steps fuel : Nat} {fields last : Fields}
    {members : List (String × Json)} (fills : Fills steps fields members last) {function : String}
    (isSet : last.function = some function) (enough : members.length < fuel) (rest : Bytes) :
    readObjectForm steps fuel false fields
        ((members.map fieldBytes).flatMap (fun part => ','.toUInt8 :: part) ++
          '\x7d'.toUInt8 :: rest) =
      .ok (⟨function, last.target.getD none, last.arguments.getD []⟩, rest) := by
  induction fills generalizing fuel with
  | done fields =>
      obtain ⟨spare, rfl⟩ : ∃ spare, fuel = spare + 1 := ⟨fuel - 1, by simp at enough; omega⟩
      exact readObjectForm_close isSet rest
  | @next fields more last field others unset reads fillsRest inductionHypothesis =>
      rw [List.length_cons] at enough
      obtain ⟨spare, rfl⟩ : ∃ spare, fuel = spare + 1 := ⟨fuel - 1, by omega⟩
      rw [List.map_cons, List.flatMap_cons, List.append_assoc, List.cons_append]
      rw [readObjectForm_step (by rw [Json.fieldBytes_append]; exact Json.beforeMember_next _) unset
        (reads _)]
      exact inductionHypothesis isSet (by omega)

/-- The members of an object form are read whole, whatever their order. -/
theorem readForm_obj {members : List (String × Json)} {last : Fields}
    (fills : Fills (Json.stepsFor (textBytes (.obj members))) ⟨none, none, none⟩ members last)
    {function : String} (isSet : last.function = some function) (few : members.length ≤ 3) :
    readForm (textBytes (.obj members)) =
      .ok (⟨function, last.target.getD none, last.arguments.getD []⟩, []) := by
  generalize isSteps : Json.stepsFor (textBytes (.obj members)) = steps at fills
  have enough : 4 ≤ steps := by
    rw [← isSteps, Json.textBytes_obj]
    simp only [Json.stepsFor, List.length_cons, List.length_append]
    omega
  have noSpace : ∀ rest, Json.skipSpace ('\x7b'.toUInt8 :: rest) = '\x7b'.toUInt8 :: rest :=
    fun _ => rfl
  have notList : '\x7b'.toUInt8 ≠ '['.toUInt8 := by decide
  simp only [readForm, isSteps]
  rw [Json.textBytes_obj]
  simp only [noSpace, if_neg notList, if_true]
  obtain ⟨spare, rfl⟩ : ∃ spare, steps = spare + 1 := ⟨steps - 1, by omega⟩
  cases fills with
  | done => cases isSet
  | @next fields more last field others unset reads fillsRest =>
      rw [List.length_cons] at few
      simp only [List.map_cons, commaBytes, List.append_assoc]
      rw [readObjectForm_step (by rw [Json.fieldBytes_append]; exact Json.beforeMember_first _)
        unset (reads _)]
      exact readObjectForm_more fillsRest isSet (by omega) []

/-! ## Invocations -/

/-- What can be read of an invocation whose fields have all been read. -/
def filled (invocation : Invocation) : Fields :=
  ⟨some invocation.function, invocation.target.map some, some invocation.arguments⟩

private theorem readMember_function (fields : Fields) (steps : Nat) (function : String)
    (after : Bytes) :
    fields.readMember steps "fcn" (textBytes (.str function) ++ after) =
      .ok ({ fields with function := some function }, after) := by
  rw [Fields.readMember, if_pos rfl, readName_text]
  rfl

private theorem readMember_target (fields : Fields) (steps : Nat) (target : String)
    (after : Bytes) :
    fields.readMember steps "tgt" (textBytes (.str target) ++ after) =
      .ok ({ fields with target := some (some target) }, after) := by
  rw [Fields.readMember, if_neg (by decide), if_pos rfl, readTarget_text]
  rfl

section

variable {invocation : Invocation} {steps : Nat}
  (faithful : Json.Faithful (.arr invocation.arguments))
  (nested : invocation.toJson.depth < Json.nestingLimit)
  (enough : 2 * (textBytes (.arr invocation.arguments)).length ≤ steps)

include faithful nested enough

private theorem readMember_arguments (fields : Fields) (after : Bytes) :
    fields.readMember steps "arg" (textBytes (.arr invocation.arguments) ++ after) =
      .ok ({ fields with arguments := some invocation.arguments }, after) := by
  have shallow : Json.depthItems invocation.arguments < Json.nestingLimit - 2 := by
    rw [toJson_eq, sortedFields, List.cons_append, Json.depth, Json.depthFields, Json.depth]
      at nested
    omega
  rw [Fields.readMember, if_neg (by decide), if_neg (by decide), if_pos rfl,
    readArguments_items faithful shallow enough]
  rfl

theorem fills_sortedFields : Fills steps ⟨none, none, none⟩ invocation.sortedFields
    invocation.filled := by
  have readsArguments := fun fields after =>
    readMember_arguments faithful nested enough fields after
  obtain ⟨function, target, arguments⟩ := invocation
  refine .next rfl (readsArguments _) (.next rfl (readMember_function _ _ _) ?_)
  cases target with
  | none => exact .done _
  | some target => exact .next rfl (readMember_target _ _ _) (.done _)

theorem fills_fields : Fills steps ⟨none, none, none⟩ invocation.fields invocation.filled := by
  have readsArguments := fun fields after =>
    readMember_arguments faithful nested enough fields after
  obtain ⟨function, target, arguments⟩ := invocation
  refine .next rfl (readMember_function _ _ _) ?_
  cases target with
  | none => exact .next rfl (readsArguments _) (.done _)
  | some target =>
      exact .next rfl (readMember_target _ _ _) (.next rfl (readsArguments _) (.done _))

end

private theorem decode_of_readForm {text : String} {invocation : Invocation}
    (read : readForm (encodeUtf8 text) = .ok (invocation, [])) : decode text = .ok invocation := by
  simp only [decode, read, bind, Except.bind]
  rfl

private theorem decode_render {invocation : Invocation} {members : List (String × Json)}
    (fills : 2 * (textBytes (.arr invocation.arguments)).length ≤
        Json.stepsFor (textBytes (.obj members)) →
      Fills (Json.stepsFor (textBytes (.obj members))) ⟨none, none, none⟩ members
        invocation.filled)
    (same : members.Perm invocation.fields) :
    decode (Json.obj members).render = .ok invocation := by
  have isMember : ("arg", Json.arr invocation.arguments) ∈ members :=
    same.mem_iff.mpr (by simp [fields])
  have enough : 2 * (textBytes (.arr invocation.arguments)).length ≤
      Json.stepsFor (textBytes (.obj members)) :=
    Nat.le_trans (Nat.mul_le_mul_left 2 (Json.length_textBytes_field isMember))
      (Nat.le_add_right _ 2)
  have few : members.length ≤ 3 := by
    rw [same.length_eq]
    obtain ⟨function, target, arguments⟩ := invocation
    cases target <;> simp [fields]
  have read := readForm_obj (fills enough) rfl few
  obtain ⟨function, target, arguments⟩ := invocation
  cases target <;> exact decode_of_readForm read

/-- An invocation is read back from its object form. -/
theorem decode_encode {invocation : Invocation}
    (faithful : Json.Faithful (.arr invocation.arguments))
    (nested : invocation.toJson.depth < Json.nestingLimit) :
    decode invocation.encode = .ok invocation := by
  rw [encode, toJson_eq]
  exact decode_render (fills_sortedFields faithful nested) invocation.sortedFields_perm

/-- An invocation is read back from its record form. -/
theorem decode_recordText {invocation : Invocation}
    (faithful : Json.Faithful (.arr invocation.arguments))
    (nested : invocation.toJson.depth < Json.nestingLimit) :
    decode invocation.recordText = .ok invocation :=
  decode_render (fills_fields faithful nested) (.refl _)

theorem faithful_toJson {invocation : Invocation}
    (faithful : Json.Faithful (.arr invocation.arguments)) : Json.Faithful invocation.toJson := by
  obtain ⟨wellFormed, numbers⟩ := faithful
  have ascending : Entries.Ascending invocation.sortedFields :=
    Json.obj.inj (toJson_eq invocation) ▸ invocation.toMap.ascending
  rw [toJson_eq]
  refine ⟨?_, ?_⟩
  · rw [Json.wellFormed, Bool.and_eq_true, decide_eq_true_eq]
    refine ⟨ascending, ?_⟩
    rw [Json.wellFormed] at wellFormed
    obtain ⟨function, target, arguments⟩ := invocation
    cases target <;> simpa [sortedFields, Json.wellFormedFields, Json.wellFormed] using wellFormed
  · obtain ⟨function, target, arguments⟩ := invocation
    cases target <;> simpa [sortedFields, Json.floats, Json.floatsFields] using numbers

theorem faithful_fields {invocation : Invocation}
    (faithful : Json.Faithful (.arr invocation.arguments)) :
    ∀ field ∈ invocation.fields, Json.Faithful field.2 := by
  have ofObject := faithful_toJson faithful
  rw [toJson_eq] at ofObject
  exact fun field member => ofObject.field field (invocation.sortedFields_perm.mem_iff.mpr member)

theorem faithful_batch {invocations : List Invocation}
    (faithful : ∀ invocation ∈ invocations, Json.Faithful (.arr invocation.arguments)) :
    Json.Faithful (.arr (invocations.map toJson)) := by
  refine ⟨?_, ?_⟩
  · rw [Json.wellFormed, Json.wellFormedItems_eq, List.all_eq_true]
    rintro item member
    obtain ⟨invocation, isIn, rfl⟩ := List.mem_map.mp member
    exact (faithful_toJson (faithful invocation isIn)).wellFormed
  · rw [Json.floats, Json.floatsItems_eq]
    rintro number inBatch
    obtain ⟨item, member, inItem⟩ := List.mem_flatMap.mp inBatch
    obtain ⟨invocation, isIn, rfl⟩ := List.mem_map.mp member
    exact (faithful_toJson (faithful invocation isIn)).numbers number inItem

theorem mapM_ofJson (invocations : List Invocation) :
    (invocations.map toJson).mapM ofJson = .ok invocations := by
  induction invocations with
  | nil => rfl
  | cons invocation rest inductionHypothesis =>
      rw [List.map_cons, List.mapM_cons, ofJson_toJson, inductionHypothesis]
      rfl

/-- With a target the text is longer than without. -/
theorem encode_ne_of_target (function target : String) (arguments : List Json) :
    encode ⟨function, none, arguments⟩ ≠ encode ⟨function, some target, arguments⟩ := by
  intro same
  have sameLength := congrArg String.length same
  simp only [encode, toJson_eq, sortedFields, Json.render, Json.renderFields, List.cons_append,
    List.nil_append, List.append_nil, String.length_append] at sameLength
  have comma : ",".length = 1 := rfl
  omega

/-- The texts of invocations are read back.

The text of a batch is the text of the list of its invocations, and there is
none exactly without any. Read as a value, as far as it is nested less deep
than the reader's limit and its numbers are given back by their own texts, it
has one entry for each invocation, in their order, and each entry gives its
invocation, from its value and from its own text. The same holds of a single
invocation, in its object form and in its record form, which for every
invocation hold the same fields. A target is in the object form exactly as it
is in the invocation, so that none and an empty one differ. -/
theorem invocations_come_back :
    (∀ invocations, encodeBatch invocations = none ↔ invocations = []) ∧
    (∀ invocations text, encodeBatch invocations = some text →
      text = (Json.arr (invocations.map toJson)).render) ∧
    (∀ invocations text, encodeBatch invocations = some text →
      (∀ invocation ∈ invocations, Json.Faithful (.arr invocation.arguments)) →
      (Json.arr (invocations.map toJson)).depth < Json.nestingLimit →
        ∃ entries, Json.readText text = .ok (.arr entries) ∧
          entries.mapM ofJson = .ok invocations ∧
          entries.map (fun entry => decode entry.render) = invocations.map .ok) ∧
    (∀ invocation : Invocation, Json.Faithful (.arr invocation.arguments) →
      invocation.toJson.depth < Json.nestingLimit →
        decode invocation.encode = .ok invocation ∧
        decode invocation.recordText = .ok invocation ∧
        Json.readText invocation.encode = .ok invocation.toJson ∧
        Json.readText invocation.recordText = .ok invocation.toJson) ∧
    (∀ invocation : Invocation,
      (∃ entries, invocation.toJson = .obj entries ∧ entries.Perm invocation.fields) ∧
        ofJson invocation.toJson = .ok invocation ∧
        invocation.toJson.field? "tgt" = invocation.target.map .str) ∧
    ∀ function target arguments,
      encode ⟨function, none, arguments⟩ ≠ encode ⟨function, some target, arguments⟩ := by
  have isBatch : ∀ invocations text, encodeBatch invocations = some text →
      text = (Json.arr (invocations.map toJson)).render := by
    intro invocations text encoded
    cases invocations with
    | nil => cases encoded
    | cons first rest =>
        exact (Option.some.inj ((encodeBatch_cons first rest).symm.trans encoded)).symm
  refine ⟨?_, isBatch, ?_, ?_, ?_, encode_ne_of_target⟩
  · intro invocations
    cases invocations with
    | nil => exact ⟨fun _ => rfl, fun _ => rfl⟩
    | cons first rest => simp [encodeBatch_cons]
  · intro invocations text encoded faithful nested
    obtain rfl := isBatch invocations text encoded
    refine ⟨_, Json.readText_render (faithful_batch faithful) nested, mapM_ofJson invocations, ?_⟩
    rw [Json.depth] at nested
    have shallow := (Json.depthItems_lt_iff (by decide)).mp (Nat.lt_of_succ_lt nested)
    rw [List.map_map]
    refine List.map_congr_left fun invocation isIn => ?_
    exact decode_encode (faithful invocation isIn) (shallow _ (List.mem_map_of_mem isIn))
  · intro invocation faithful nested
    have sameDepth : (Json.obj invocation.fields).depth < Json.nestingLimit := by
      rw [toJson_eq, Json.depth] at nested
      have positive : 0 < Json.nestingLimit - 1 := by decide
      have shallow : Json.depthFields invocation.sortedFields < Json.nestingLimit - 1 := by omega
      have below := (Json.depthFields_lt_iff positive).mp shallow
      have deep := (Json.depthFields_lt_iff positive).mpr fun field member =>
        below field (invocation.sortedFields_perm.mem_iff.mpr member)
      rw [Json.depth]
      omega
    refine ⟨decode_encode faithful nested, decode_recordText faithful nested,
      Json.readText_render (faithful_toJson faithful) nested, ?_⟩
    rw [← ofFields_fields]
    exact Json.readText_render_obj (faithful_fields faithful) sameDepth
  · intro invocation
    exact ⟨⟨_, toJson_eq invocation, invocation.sortedFields_perm⟩, ofJson_toJson invocation,
      field?_target invocation⟩

/-- One invocation without target and one with an empty one; the arguments look
like the marks around them. -/
def sampleBatch : List Invocation :=
  [⟨"show", none, [.str "],[\"\n", .arr [.float ⟨0x3FF8000000000000, by decide⟩, .null]]⟩,
    ⟨"hide", some "", []⟩]

theorem batch_of_two_comes_back :
    (∀ invocation ∈ sampleBatch, Json.Faithful (.arr invocation.arguments)) ∧
      (Json.arr (sampleBatch.map toJson)).depth < Json.nestingLimit ∧
      (∃ text entries, encodeBatch sampleBatch = some text ∧
        Json.readText text = .ok (.arr entries) ∧ entries.mapM ofJson = .ok sampleBatch) ∧
      decode (encode ⟨"hide", some "", []⟩) = .ok ⟨"hide", some "", []⟩ := by
  have faithful : ∀ invocation ∈ sampleBatch, Json.Faithful (.arr invocation.arguments) := by
    decide +kernel
  have nested : (Json.arr (sampleBatch.map toJson)).depth < Json.nestingLimit := by
    decide +kernel
  obtain ⟨-, -, batches, singles, -⟩ := invocations_come_back
  obtain ⟨entries, read, same, -⟩ := batches sampleBatch _ (encodeBatch_cons _ _) faithful nested
  exact ⟨faithful, nested, ⟨_, entries, encodeBatch_cons _ _, read, same⟩,
    (singles ⟨"hide", some "", []⟩ (by decide +kernel) (by decide +kernel)).1⟩

end LivePage.Invocation
