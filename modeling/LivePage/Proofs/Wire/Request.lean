import LivePage.Proofs.Json.RoundTrip
import LivePage.Wire.Envelope

/-!
Contract: requests come back from their messages.

Owns:
- where a binary message is split, and when its first line is refused;
- the request of a text message, and of a binary one with the same text in its
  first line, whatever bytes follow.

Does not own: fragments of messages.
-/

namespace LivePage

open Text (encodeUtf8)

/-! ## The first line -/

/-- The bytes in front of the first line break, all of them if there is none. -/
def firstLine (bytes : List UInt8) : List UInt8 :=
  bytes.takeWhile (· ≠ '\n'.toUInt8)

/-- The bytes behind the first line break. -/
def afterFirstLine (bytes : List UInt8) : List UInt8 :=
  (bytes.dropWhile (· ≠ '\n'.toUInt8)).drop 1

private theorem firstLine_break (rest : List UInt8) :
    firstLine ('\n'.toUInt8 :: rest) = [] := rfl

private theorem firstLine_cons {byte : UInt8} (noBreak : byte ≠ '\n'.toUInt8)
    (rest : List UInt8) : firstLine (byte :: rest) = byte :: firstLine rest :=
  List.takeWhile_cons_of_pos (by simpa using noBreak)

theorem not_mem_firstLine (bytes : List UInt8) : '\n'.toUInt8 ∉ firstLine bytes := by
  have noBreak : (firstLine bytes).all (· ≠ '\n'.toUInt8) = true := List.all_takeWhile
  intro member
  exact absurd rfl (of_decide_eq_true (List.all_eq_true.mp noBreak _ member))

/-- The loop keeps what of the first line still fits beside the bytes kept, and
stops at the byte that no longer fits. -/
theorem collectPreamble_eq {limit : Nat} (bytes : List UInt8) {preamble : Array UInt8}
    (fits : preamble.size ≤ limit) :
    collectPreamble limit preamble bytes =
      if limit < preamble.size + (firstLine bytes).length then .error (.preambleTooLarge limit)
      else .ok (preamble.toList ++ firstLine bytes, afterFirstLine bytes) := by
  induction bytes generalizing preamble with
  | nil =>
      have noMore : firstLine [] = [] := rfl
      rw [collectPreamble, noMore, List.length_nil, Nat.add_zero, if_neg (Nat.not_lt.mpr fits),
        List.append_nil]
      rfl
  | cons byte rest inductionHypothesis =>
      by_cases isBreak : byte = '\n'.toUInt8
      · subst isBreak
        rw [collectPreamble, if_pos rfl, firstLine_break, List.length_nil, Nat.add_zero,
          if_neg (Nat.not_lt.mpr fits), List.append_nil]
        rfl
      · have sameAfter : afterFirstLine (byte :: rest) = afterFirstLine rest := by
          rw [afterFirstLine, List.dropWhile_cons_of_pos (by simpa using isBreak), afterFirstLine]
        rw [collectPreamble, if_neg isBreak, firstLine_cons isBreak, List.length_cons, sameAfter]
        by_cases isFull : preamble.size = limit
        · rw [if_pos isFull, if_pos (by omega)]
        · have room : (preamble.push byte).size ≤ limit := by
            rw [Array.size_push]
            omega
          rw [if_neg isFull, inductionHypothesis room, Array.size_push, Array.toList_push,
            List.append_assoc, List.singleton_append, Nat.add_assoc,
            Nat.add_comm 1 (firstLine rest).length]

theorem splitPreamble_eq (limit : Nat) (bytes : List UInt8) :
    splitPreamble limit bytes =
      if limit < (firstLine bytes).length then .error (.preambleTooLarge limit)
      else .ok (firstLine bytes, afterFirstLine bytes) := by
  have empty : (#[] : Array UInt8).size ≤ limit := Nat.zero_le limit
  have collected := collectPreamble_eq bytes empty
  rwa [Array.size_empty, Nat.zero_add, Array.toList_empty, List.nil_append] at collected

/-- The first line, its break and what follows are the whole. -/
theorem firstLine_append (bytes : List UInt8) :
    bytes = firstLine bytes ++ '\n'.toUInt8 :: afterFirstLine bytes ∨
      bytes = firstLine bytes ∧ afterFirstLine bytes = [] := by
  have whole := List.takeWhile_append_dropWhile (p := (· ≠ '\n'.toUInt8)) (l := bytes)
  have stops := List.head?_dropWhile_not (· ≠ '\n'.toUInt8) bytes
  cases remaining : bytes.dropWhile (· ≠ '\n'.toUInt8) with
  | nil =>
      rw [remaining, List.append_nil] at whole
      exact .inr ⟨whole.symm, by rw [afterFirstLine, remaining]; rfl⟩
  | cons byte rest =>
      rw [remaining] at whole stops
      have isBreak : byte = '\n'.toUInt8 := by simpa using stops
      subst isBreak
      refine .inl ?_
      rw [afterFirstLine, remaining]
      exact whole.symm

theorem firstLine_of_not_mem {line : List UInt8} (noBreak : '\n'.toUInt8 ∉ line)
    (rest : List UInt8) : firstLine (line ++ '\n'.toUInt8 :: rest) = line ∧
      afterFirstLine (line ++ '\n'.toUInt8 :: rest) = rest := by
  have inLine : ∀ byte ∈ line, decide (byte ≠ '\n'.toUInt8) = true := by
    rintro byte member
    exact decide_eq_true fun isBreak => noBreak (isBreak ▸ member)
  rw [firstLine, afterFirstLine, List.takeWhile_append_of_pos inLine,
    List.dropWhile_append_of_pos inLine]
  exact ⟨List.append_nil line, rfl⟩

namespace Envelope

/-! ## Requests -/

/-- The fields of a request as a client sends them. -/
def sentFields (pid requestType : String) (data : Dict Json) : List (String × Json) :=
  [("pid", .str pid), ("type", .str requestType), ("data", .obj data.toList)]

theorem nodup_sentFields (pid requestType : String) (data : Dict Json) :
    ((sentFields pid requestType data).map Prod.fst).Nodup := by
  show ["pid", "type", "data"].Nodup
  decide

/-- The request of the fields that a client sends, in whatever order. -/
theorem ofJson_sentFields {pid requestType : String} {data : Dict Json}
    {fields : List (String × Json)} (sent : fields.Perm (sentFields pid requestType data)) :
    ofJson (Json.ofFields fields) = .ok ⟨pid, requestType, data.erase blobKey, none⟩ := by
  have distinct : (fields.map Prod.fst).Nodup :=
    (sent.map Prod.fst).nodup_iff.mpr (nodup_sentFields pid requestType data)
  have found : ∀ name value, (name, value) ∈ sentFields pid requestType data →
      Entries.find? name (Entries.ofList fields) = some value := by
    intro name value member
    rw [Entries.find?_ofList distinct]
    exact Entries.find?_of_mem_of_nodup distinct (sent.mem_iff.mpr member)
  have sameData : Dict.ofList data.toList = data := by
    cases data with
    | mk entries ascending =>
        simp only [Dict.ofList, Entries.ofList_of_ascending ascending]
  have foundData := found "data" (.obj data.toList) (by simp [sentFields])
  have foundPid := found "pid" (.str pid) (by simp [sentFields])
  have foundType := found "type" (.str requestType) (by simp [sentFields])
  simp only [Json.ofFields, ofJson, ofFields, foundData, foundPid, foundType, dataOf, textOf,
    sameData]
  rfl

theorem faithful_of_mem_sentFields {pid requestType : String} {data : Dict Json}
    (faithful : Json.Faithful (.obj data.toList)) :
    ∀ field ∈ sentFields pid requestType data, Json.Faithful field.2 := by
  simp only [sentFields, List.forall_mem_cons]
  exact ⟨⟨rfl, by simp [Json.floats]⟩, ⟨rfl, by simp [Json.floats]⟩, faithful, by simp⟩

theorem decodeText_sent {pid requestType : String} {data : Dict Json}
    {fields : List (String × Json)} (sent : fields.Perm (sentFields pid requestType data))
    (nested : (Json.obj fields).depth < Json.nestingLimit)
    (faithful : Json.Faithful (.obj data.toList)) :
    decodeText (Json.obj fields).render = .ok ⟨pid, requestType, data.erase blobKey, none⟩ := by
  have read : Json.read (encodeUtf8 (Json.obj fields).render) = .ok (Json.ofFields fields) :=
    Json.readText_render_obj
      (fun field member => faithful_of_mem_sentFields faithful field (sent.mem_iff.mp member))
      nested
  rw [decodeText, decodeBytes, read]
  exact ofJson_sentFields sent

/-- The first line of a binary message decides like a text message. -/
theorem decodeBinary_eq (limit : Nat) (bytes : List UInt8) :
    decodeBinary limit bytes =
      if limit < (firstLine bytes).length then .error (.preambleTooLarge limit)
      else (decodeBytes (firstLine bytes)).map (fun envelope =>
        { envelope with blob := some (afterFirstLine bytes) }) := by
  rw [decodeBinary, splitPreamble_eq]
  by_cases tooLong : limit < (firstLine bytes).length
  · rw [if_pos tooLong, if_pos tooLong]
  · rw [if_neg tooLong, if_neg tooLong]
    simp only
    cases decodeBytes (firstLine bytes) <;> rfl

theorem break_not_mem_render (value : Json) : '\n'.toUInt8 ∉ encodeUtf8 value.render :=
  fun member => Json.not_control_of_mem_textBytes value _ member (by decide)

/-- Requests come back from their messages: a text message with the fields of a
request in any order, nested less deep than the reader's limit, gives the
request without data under the reserved key. A binary message with this text as
its first line gives the same with exactly the bytes behind the line break, as
long as the line is no longer than the limit, and is refused otherwise.

Of bytes of any kind, the first line is refused exactly when it is longer than
the limit. Otherwise it is split off without its break, nothing is lost, and
the request is that of a text message with the same line, apart from the blob. -/
theorem requests_come_back :
    (∀ (pid requestType : String) (data : Dict Json) (fields : List (String × Json)),
      fields.Perm (sentFields pid requestType data) →
      (Json.obj fields).depth < Json.nestingLimit →
      Json.Faithful (.obj data.toList) →
        decodeText (Json.obj fields).render =
            .ok ⟨pid, requestType, data.erase blobKey, none⟩ ∧
          ∀ (blob : List UInt8) (limit : Nat),
            decodeBinary limit (encodeUtf8 (Json.obj fields).render ++ '\n'.toUInt8 :: blob) =
              if (encodeUtf8 (Json.obj fields).render).length ≤ limit then
                .ok ⟨pid, requestType, data.erase blobKey, some blob⟩
              else .error (.preambleTooLarge limit)) ∧
    ∀ (bytes : List UInt8) (limit : Nat),
      (limit < (firstLine bytes).length →
        splitPreamble limit bytes = .error (.preambleTooLarge limit)) ∧
      ((firstLine bytes).length ≤ limit →
        ∃ preamble rest, splitPreamble limit bytes = .ok (preamble, rest) ∧
          '\n'.toUInt8 ∉ preamble ∧
          (bytes = preamble ++ '\n'.toUInt8 :: rest ∨ bytes = preamble ∧ rest = []) ∧
          ∀ text, encodeUtf8 text = preamble →
            decodeBinary limit bytes =
              (decodeText text).map (fun envelope => { envelope with blob := some rest })) := by
  refine ⟨?_, ?_⟩
  · intro pid requestType data fields sent nested faithful
    have decoded := decodeText_sent sent nested faithful
    refine ⟨decoded, fun blob limit => ?_⟩
    obtain ⟨line, after⟩ := firstLine_of_not_mem (break_not_mem_render (.obj fields)) blob
    have sameLine : decodeBytes (encodeUtf8 (Json.obj fields).render) = _ := decoded
    rw [decodeBinary_eq, line, after, sameLine]
    by_cases fits : (encodeUtf8 (Json.obj fields).render).length ≤ limit
    · rw [if_neg (Nat.not_lt.mpr fits), if_pos fits]
      rfl
    · rw [if_pos (Nat.lt_of_not_le fits), if_neg fits]
  · intro bytes limit
    refine ⟨fun tooLong => ?_, fun fits => ?_⟩
    · rw [splitPreamble_eq, if_pos tooLong]
    · have inLimit := Nat.not_lt.mpr fits
      refine ⟨_, _, (splitPreamble_eq limit bytes).trans (if_neg inLimit),
        not_mem_firstLine bytes, firstLine_append bytes, fun text same => ?_⟩
      rw [decodeBinary_eq, if_neg inLimit, decodeText, same]

/-- Data with a quoted line break, a fraction and the reserved key. -/
def sampleData : Dict Json :=
  .ofList [("note", .str "a \"line\"\nbreak"), ("share", .float ⟨0x3FE0000000000000, by decide⟩),
    (blobKey, .int 7)]

theorem request_with_reserved_key_comes_back :
    (Json.obj (sentFields "p1" "save" sampleData)).depth < Json.nestingLimit ∧
      Json.Faithful (.obj sampleData.toList) ∧
      decodeText (Json.obj (sentFields "p1" "save" sampleData)).render =
        .ok ⟨"p1", "save", sampleData.erase blobKey, none⟩ ∧
      decodeBinary 100 (encodeUtf8 (Json.obj (sentFields "p1" "save" sampleData)).render ++
          '\n'.toUInt8 :: [0xFF, 0x0A, 0x00]) =
        .ok ⟨"p1", "save", sampleData.erase blobKey, some [0xFF, 0x0A, 0x00]⟩ := by
  have nested : (Json.obj (sentFields "p1" "save" sampleData)).depth < Json.nestingLimit := by
    decide +kernel
  have faithful : Json.Faithful (.obj sampleData.toList) := by decide +kernel
  have comesBack := requests_come_back.1 "p1" "save" sampleData _ (.refl _) nested faithful
  refine ⟨nested, faithful, comesBack.1, ?_⟩
  rw [comesBack.2]
  exact if_pos (by decide +kernel)

end Envelope

end LivePage
