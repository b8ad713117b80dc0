import LivePage.Blueprint.Instruction
import LivePage.Proofs.Markup.References
import LivePage.Proofs.Text.Ends
import LivePage.Proofs.Text.Slices

/-!
Contract: the data of processing instructions is read exactly as it is spelled.

Owns:
- the spelling of items and of data;
- the items of a spelling are read, and what is read is spelled;
- the last item of a name counts;
- values that are written with references are read back.

Does not own: which names an instruction needs.
-/

namespace LivePage

/-! ## Entries written one after another -/

namespace Dict

variable {α : Type u}

theorem get?_ofList (entries : List (String × α)) (key : String) :
    (ofList entries).get? key = Entries.find? key entries.reverse := by
  induction entries using List.reverseRecOn with
  | nil => rfl
  | append_singleton rest last inductionHypothesis =>
      have written : ofList (rest ++ [last]) = (ofList rest).insert last.1 last.2 := by
        simp [ofList, insert, Entries.ofList]
      rw [written, get?_insert, inductionHypothesis, List.reverse_append, List.reverse_singleton,
        List.singleton_append, Entries.find?]
      simp only [eq_comm]

/-- The entries of a map, in whatever order they are written. -/
theorem ofList_of_perm {dict : Dict α} {entries : List (String × α)}
    (same : entries.Perm dict.toList) : ofList entries = dict := by
  have distinct : (entries.map Prod.fst).Nodup :=
    (same.map Prod.fst).nodup_iff.mpr dict.ascending.nodup
  apply ext_get?
  intro key
  apply Option.ext
  intro value
  rw [get?, ofList, Entries.find?_ofList distinct, ← mem_toList, ← same.mem_iff]
  exact ⟨Entries.mem_of_find?, Entries.find?_of_mem_of_nodup distinct⟩

end Dict

namespace PseudoAttribute

open Text

/-! ## Quoted text -/

theorem sliceFrom_quote {quote : Char} (quotes : isQuote quote = true) (tail : List Char) :
    sliceFrom (quote :: tail) 1 = tail := by
  have whole := sliceFrom_append [quote] tail
  rwa [byteCount_cons, utf8Size_of_isQuote quotes, byteCount_nil] at whole

/-- A quoted text ends at the first quote that is like the one in front. -/
theorem readQuoted_cons (name : String) {quote : Char} (quotes : isQuote quote = true)
    (tail : List Char) :
    readQuoted name (quote :: tail) =
      match cutAt? (· == quote) tail with
      | none => .error (.unterminated name)
      | some parts => .ok parts := by
  rw [readQuoted, List.head?_cons]
  simp only [quotes, if_true, sliceFrom_quote quotes, find?]
  cases cut : cutAt? (· == quote) tail with
  | none => rfl
  | some parts =>
      obtain ⟨body, rest⟩ := parts
      obtain ⟨rfl, -⟩ := cutAt?_beq_eq_some_iff.mp cut
      have closed : byteCount body + 1 = byteCount (body ++ [quote]) := by
        rw [byteCount_append, byteCount_cons, utf8Size_of_isQuote quotes, byteCount_nil]
      have behind := sliceFrom_append (body ++ [quote]) rest
      rw [← closed, List.append_assoc, List.singleton_append] at behind
      simp only [Option.map_some, slice_front, behind]

/-- The slices that are taken of a text in front of which a quote stands. -/
def SlicesInBounds (chars : List Char) : Prop :=
  ∀ quote, chars.head? = some quote → isQuote quote = true →
    InBounds chars 1 (byteCount chars) ∧
      ∀ close, find? (· == quote) (sliceFrom chars 1) = some close →
        InBounds (sliceFrom chars 1) 0 close ∧
          InBounds (sliceFrom chars 1) (close + 1) (byteCount (sliceFrom chars 1))

theorem slicesInBounds (chars : List Char) : SlicesInBounds chars := by
  intro quote isHead quotes
  obtain ⟨tail, rfl⟩ := List.head?_eq_some_iff.mp isHead
  have quoteBytes : byteCount [quote] = 1 := utf8Size_of_isQuote quotes
  constructor
  · have behind := inBounds_from [quote] tail
    rwa [quoteBytes] at behind
  · intro close found
    rw [sliceFrom_quote quotes] at found ⊢
    obtain ⟨parts, cut, rfl⟩ := Option.map_eq_some_iff.mp found
    obtain ⟨split, -⟩ := cutAt?_beq_eq_some_iff.mp cut
    constructor
    · rw [split]
      exact inBounds_front _ _
    · have behind := inBounds_from (parts.1 ++ [quote]) parts.2
      rwa [byteCount_append, quoteBytes, List.append_assoc, List.singleton_append, ← split]
        at behind

/-! ## Spelling -/

/-- Names of values are words without an equals sign. -/
structure IsName (name : String) : Prop where
  nonempty : name.toList ≠ []
  word : ∀ char ∈ name.toList, isBlank char = false
  noEquals : '=' ∉ name.toList

instance (name : String) : Decidable (IsName name) :=
  decidable_of_iff (name.toList ≠ [] ∧ name.toList.any isBlank = false ∧ '=' ∉ name.toList)
    ⟨fun holds => ⟨holds.1, by simpa using holds.2.1, holds.2.2⟩,
      fun isName => ⟨isName.nonempty, by simpa using isName.word, isName.noEquals⟩⟩

/-- An item as it is spelled in the data, and the value that it gives to a name. -/
structure Item where
  name : String
  value : String
  beforeEquals : List Char
  behindEquals : List Char
  quote : Char
  body : List Char
  /-- The white space up to the next item. -/
  behind : List Char
  isName : IsName name
  beforeBlank : ∀ char ∈ beforeEquals, isBlank char = true
  behindBlank : ∀ char ∈ behindEquals, isBlank char = true
  quotes : isQuote quote = true
  closed : quote ∉ body
  meant : Markup.unescape body = .ok value.toList
  endBlank : ∀ char ∈ behind, isBlank char = true

namespace Item

/-- The item from its name to its closing quote, in front of further text. -/
def before (item : Item) (rest : List Char) : List Char :=
  item.name.toList ++ (item.beforeEquals ++
    '=' :: (item.behindEquals ++ item.quote :: (item.body ++ item.quote :: rest)))

def text (item : Item) : List Char :=
  item.before item.behind

def reading (item : Item) : PseudoAttribute :=
  ⟨item.name, item.value⟩

def entry (item : Item) : String × String :=
  (item.name, item.value)

theorem text_append (item : Item) (rest : List Char) :
    item.text ++ rest = item.before (item.behind ++ rest) := by
  simp [text, before]

theorem trimStart_before (item : Item) (rest : List Char) :
    trimStart (item.before rest) = item.before rest := by
  obtain ⟨first, more, name_eq⟩ := List.exists_cons_of_ne_nil item.isName.nonempty
  have notBlank : isBlank first = false := item.isName.word first (by simp [name_eq])
  rw [before, name_eq, List.cons_append, trimStart_cons notBlank]

end Item

theorem isBlank_of_isQuote {quote : Char} (quotes : isQuote quote = true) :
    isBlank quote = false := by
  rw [isQuote, Bool.or_eq_true, beq_iff_eq, beq_iff_eq] at quotes
  rcases quotes with rfl | rfl <;> rfl

theorem equals_not_mem {chars : List Char} (blank : ∀ char ∈ chars, isBlank char = true) :
    '=' ∉ chars := by
  intro member
  cases blank '=' member

/-- An item that is spelled is read. -/
theorem readItem_before (item : Item) (rest : List Char) :
    readItem (item.before rest) = .ok (item.reading, rest) := by
  have noEquals : '=' ∉ item.name.toList ++ item.beforeEquals := by
    rw [List.mem_append, not_or]
    exact ⟨item.isName.noEquals, equals_not_mem item.beforeBlank⟩
  have cut : cutAt? (· == '=') (item.before rest) = some (item.name.toList ++ item.beforeEquals,
      item.behindEquals ++ item.quote :: (item.body ++ item.quote :: rest)) := by
    refine cutAt?_beq_eq_some_iff.mpr ⟨?_, noEquals⟩
    rw [Item.before, List.append_assoc]
  have isName : trim (item.name.toList ++ item.beforeEquals) = item.name.toList :=
    trim_append item.isName.nonempty item.isName.word item.beforeBlank
  have whole : (item.name.toList.isEmpty || item.name.toList.any isBlank) = false := by
    rw [Bool.or_eq_false_iff, List.isEmpty_eq_false_iff, List.any_eq_false]
    exact ⟨item.isName.nonempty, fun char member => by simp [item.isName.word char member]⟩
  have quoteNotBlank := isBlank_of_isQuote item.quotes
  have quoted : readQuoted item.name
      (trimStart (item.behindEquals ++ item.quote :: (item.body ++ item.quote :: rest))) =
        .ok (item.body, rest) := by
    rw [trimStart_append item.behindBlank, trimStart_cons quoteNotBlank,
      readQuoted_cons _ item.quotes, cutAt?_beq_eq_some_iff.mpr ⟨rfl, item.closed⟩]
  rw [readItem, cut]
  simp only [isName, String.ofList_toList, whole, quoted, item.meant]
  rfl

theorem readQuoted_eq_ok {name : String} {chars body rest : List Char}
    (found : readQuoted name chars = .ok (body, rest)) :
    ∃ quote, isQuote quote = true ∧ quote ∉ body ∧ chars = quote :: (body ++ quote :: rest) := by
  cases chars with
  | nil => cases found
  | cons quote tail =>
      cases quotes : isQuote quote with
      | false => simp [readQuoted, quotes] at found
      | true =>
          rw [readQuoted_cons name quotes] at found
          cases cut : cutAt? (· == quote) tail with
          | none => simp [cut] at found
          | some parts =>
              rw [cut] at found
              obtain rfl := Except.ok.inj found
              obtain ⟨split, closed⟩ := cutAt?_beq_eq_some_iff.mp cut
              exact ⟨quote, quotes, closed, by rw [split]⟩

theorem readItem_eq_ok {chars rest : List Char} {reading : PseudoAttribute}
    (found : readItem chars = .ok (reading, rest)) :
    ∃ spelling after body value, cutAt? (· == '=') chars = some (spelling, after) ∧
      trim spelling ≠ [] ∧ (∀ char ∈ trim spelling, isBlank char = false) ∧
      readQuoted (String.ofList (trim spelling)) (trimStart after) = .ok (body, rest) ∧
      Markup.unescape body = .ok value ∧
      reading = ⟨String.ofList (trim spelling), String.ofList value⟩ := by
  unfold readItem at found
  split at found
  · cases found
  next spelling after cut =>
  simp only at found
  split at found
  · cases found
  next isName =>
  split at found
  · cases found
  next body remaining quoted =>
  split at found
  · cases found
  next value meant =>
  simp only [Except.ok.injEq, Prod.mk.injEq] at found
  obtain ⟨rfl, rfl⟩ := found
  rw [Bool.not_eq_true, Bool.or_eq_false_iff, List.isEmpty_eq_false_iff, List.any_eq_false]
    at isName
  exact ⟨spelling, after, body, value, cut, isName.1,
    fun char member => by simpa using isName.2 char member, quoted, meant, rfl⟩

/-- What is read as an item is spelled as one, whatever white space follows. -/
theorem exists_item_of_readItem {chars rest behind : List Char} {reading : PseudoAttribute}
    (found : readItem (trimStart chars) = .ok (reading, rest))
    (endBlank : ∀ char ∈ behind, isBlank char = true) :
    ∃ item : Item, item.behind = behind ∧ item.reading = reading ∧
      trimStart chars = item.before rest := by
  obtain ⟨spelling, after, body, value, cut, nonempty, word, quoted, meant, rfl⟩ :=
    readItem_eq_ok found
  obtain ⟨split, noEquals⟩ := cutAt?_beq_eq_some_iff.mp cut
  obtain ⟨quote, quotes, closed, quoted_eq⟩ := readQuoted_eq_ok quoted
  obtain ⟨behindEquals, after_eq, behindBlank⟩ := exists_lead after
  obtain ⟨beforeEquals, spelling_eq, beforeBlank⟩ := exists_behind spelling
  -- White space was dropped in front, so a name has white space behind it only.
  have isName : trim spelling = trimEnd spelling := by
    rw [trim, trimStart_of_trimStart_eq_append split]
  rw [isName] at nonempty word
  let item : Item :=
    { name := String.ofList (trim spelling), value := String.ofList value, beforeEquals,
      behindEquals, quote, body, behind
      isName := by
        refine ⟨?_, ?_, ?_⟩ <;> rw [isName, String.toList_ofList]
        · exact nonempty
        · exact word
        · exact fun member => noEquals (spelling_eq ▸ List.mem_append_left _ member)
      beforeBlank, behindBlank, quotes, closed
      meant := by rw [meant, String.toList_ofList]
      endBlank }
  refine ⟨item, rfl, rfl, ?_⟩
  rw [split, after_eq, quoted_eq]
  simp only [item, Item.before, String.toList_ofList, isName]
  rw [← List.append_assoc, ← spelling_eq]

/-! ## Data -/

/-- White space, then items one behind the other. -/
def Spells (items : List Item) (chars : List Char) : Prop :=
  ∃ lead, (∀ char ∈ lead, isBlank char = true) ∧ chars = lead ++ items.flatMap Item.text

theorem readAll_of_nothing {chars : List Char} (nothing : trimStart chars = []) :
    readAll chars = .ok [] := by
  rw [readAll, nothing]
  rfl

theorem readAll_of_item {chars rest : List Char} {reading : PseudoAttribute}
    (found : readItem (trimStart chars) = .ok (reading, rest)) :
    readAll chars = (readAll rest).map (reading :: ·) := by
  have something : (trimStart chars).isEmpty = false := by
    cases left : trimStart chars with
    | nil => simp [left, readItem, cutAt?] at found
    | cons _ _ => rfl
  rw [readAll]
  simp only [something, Bool.false_eq_true, if_false]
  split
  · next fault isFault => cases found.symm.trans isFault
  · next first remaining isItem =>
      obtain ⟨rfl, rfl⟩ := Prod.mk.inj (Except.ok.inj (found.symm.trans isItem))
      cases readAll rest <;> rfl

/-- The items of a spelling are read in their order. -/
theorem readAll_of_spells {items : List Item} {chars : List Char} (spells : Spells items chars) :
    readAll chars = .ok (items.map Item.reading) := by
  obtain ⟨lead, blank, rfl⟩ := spells
  -- The white space behind an item is what leads to the next one.
  induction items generalizing lead with
  | nil =>
      refine readAll_of_nothing ?_
      rw [trimStart_append blank]
      rfl
  | cons item rest inductionHypothesis =>
      have found : readItem (trimStart (lead ++ (item :: rest).flatMap Item.text)) =
          .ok (item.reading, item.behind ++ rest.flatMap Item.text) := by
        rw [trimStart_append blank, List.flatMap_cons, item.text_append, item.trimStart_before,
          readItem_before]
      rw [readAll_of_item found, inductionHypothesis item.behind item.endBlank]
      rfl

/-- What is read is spelled by items with these readings. -/
theorem exists_spells_of_readAll {chars : List Char} {readings : List PseudoAttribute}
    (found : readAll chars = .ok readings) :
    ∃ items, Spells items chars ∧ items.map Item.reading = readings := by
  fun_induction readAll chars generalizing readings
  case case1 chars trimmed nothing =>
    obtain rfl := Except.ok.inj found
    obtain ⟨lead, split, blank⟩ := exists_lead chars
    have left : trimStart chars = [] := List.isEmpty_iff.mp nothing
    rw [left] at split
    exact ⟨[], ⟨lead, blank, split⟩, rfl⟩
  case case2 => cases found
  case case3 => cases found
  case case4 chars trimmed something reading rest isItem others isRest inductionHypothesis =>
    obtain rfl := Except.ok.inj found
    obtain ⟨items, ⟨behind, endBlank, rest_eq⟩, rfl⟩ := inductionHypothesis isRest
    obtain ⟨item, isBehind, rfl, item_eq⟩ := exists_item_of_readItem isItem endBlank
    obtain ⟨lead, split, blank⟩ := exists_lead chars
    refine ⟨item :: items, ⟨lead, blank, ?_⟩, rfl⟩
    rw [List.flatMap_cons, item.text_append, isBehind, ← rest_eq, ← item_eq]
    exact split

theorem readAll_eq_ok_iff {chars : List Char} {readings : List PseudoAttribute} :
    readAll chars = .ok readings ↔
      ∃ items, Spells items chars ∧ items.map Item.reading = readings := by
  refine ⟨exists_spells_of_readAll, ?_⟩
  rintro ⟨items, spells, rfl⟩
  exact readAll_of_spells spells

/-! ## Values -/

/-- The value of the last item of a name. -/
def lastValue? (name : String) (items : List Item) : Option String :=
  (items.reverse.find? (fun item => item.name == name)).map Item.value

theorem find?_map_entry (name : String) (items : List Item) :
    Entries.find? name (items.map Item.entry) =
      (items.find? (fun item => item.name == name)).map Item.value := by
  induction items with
  | nil => rfl
  | cons item rest inductionHypothesis =>
      rw [List.map_cons, Entries.find?, List.find?_cons, inductionHypothesis]
      by_cases isName : item.name = name
      · simp [Item.entry, isName]
      · rw [beq_false_of_ne isName]
        exact if_neg isName

theorem get?_ofList_entries (items : List Item) (name : String) :
    (Dict.ofList (items.map Item.entry)).get? name = lastValue? name items := by
  rw [Dict.get?_ofList, ← List.map_reverse, find?_map_entry, lastValue?]

theorem read_of_spells {items : List Item} {data : String} (spells : Spells items data.toList) :
    read data = .ok (Dict.ofList (items.map Item.entry)) := by
  rw [read, readAll_of_spells spells]
  simp only [List.map_map]
  rfl

theorem read_eq_ok_iff {data : String} {values : Dict String} :
    read data = .ok values ↔
      ∃ items, Spells items data.toList ∧ ∀ name, values.get? name = lastValue? name items := by
  constructor
  · intro found
    unfold read at found
    split at found
    · cases found
    · next readings isRead =>
        obtain ⟨items, spells, rfl⟩ := readAll_eq_ok_iff.mp isRead
        refine ⟨items, spells, fun name => ?_⟩
        rw [← get?_ofList_entries, ← Except.ok.inj found, List.map_map]
        rfl
  · rintro ⟨items, spells, isLast⟩
    rw [read_of_spells spells]
    refine congrArg Except.ok (Dict.ext_get? (fun name => ?_))
    rw [get?_ofList_entries, isLast name]

/-! ## Writing -/

/-- How an item is written: with which quote, which characters as references, and with which
white space. Besides the mark of references and the quote, any characters may be escaped. -/
structure Style where
  quote : Char
  escaped : Char → Bool
  beforeEquals : List Char
  behindEquals : List Char
  behind : List Char
  quotes : isQuote quote = true
  escapesMark : escaped '&' = true
  escapesQuote : escaped quote = true
  beforeBlank : ∀ char ∈ beforeEquals, isBlank char = true
  behindBlank : ∀ char ∈ behindEquals, isBlank char = true
  endBlank : ∀ char ∈ behind, isBlank char = true

namespace Style

def write (style : Style) (entry : String × String) : List Char :=
  entry.1.toList ++ (style.beforeEquals ++ '=' :: (style.behindEquals ++
    style.quote :: (Markup.escape style.escaped entry.2.toList ++ style.quote :: style.behind)))

/-- References for `&`, `<` and the quote, and a space behind. -/
def usual (quote : Char) (quotes : isQuote quote = true) : Style where
  quote := quote
  escaped char := char == '&' || char == '<' || char == quote
  beforeEquals := []
  behindEquals := []
  behind := [' ']
  quotes := quotes
  escapesMark := rfl
  escapesQuote := by simp
  beforeBlank := isBlank_of_mem_nil
  behindBlank := isBlank_of_mem_nil
  endBlank := by simp [isBlank]

theorem quote_not_mem_escape (style : Style) (chars : List Char) :
    style.quote ∉ Markup.escape style.escaped chars := by
  have isQuote := style.quotes
  rw [PseudoAttribute.isQuote, Bool.or_eq_true, beq_iff_eq, beq_iff_eq] at isQuote
  refine Markup.not_mem_escape style.escapesQuote ?_ ?_ chars
  · rcases isQuote with isDouble | isSingle
    · exact ⟨("quot", '"'), by decide, isDouble.symm⟩
    · exact ⟨("apos", '\''), by decide, isSingle.symm⟩
  · rcases isQuote with isDouble | isSingle
    · rw [isDouble]; decide
    · rw [isSingle]; decide

/-- What is written for an entry is an item with its value. -/
def item (style : Style) (entry : String × String) (isName : IsName entry.1) : Item where
  name := entry.1
  value := entry.2
  beforeEquals := style.beforeEquals
  behindEquals := style.behindEquals
  quote := style.quote
  body := Markup.escape style.escaped entry.2.toList
  behind := style.behind
  isName := isName
  beforeBlank := style.beforeBlank
  behindBlank := style.behindBlank
  quotes := style.quotes
  closed := style.quote_not_mem_escape entry.2.toList
  meant := Markup.unescape_escape style.escapesMark entry.2.toList
  endBlank := style.endBlank

end Style

/-- Entries written one behind the other. -/
def writeAll (written : List (Style × String × String)) : List Char :=
  written.flatMap (fun item => item.1.write item.2)

theorem exists_items_of_written {written : List (Style × String × String)}
    (areNames : ∀ item ∈ written, IsName item.2.1) :
    ∃ items : List Item, items.flatMap Item.text = writeAll written ∧
      items.map Item.entry = written.map Prod.snd := by
  induction written with
  | nil => exact ⟨[], rfl, rfl⟩
  | cons first rest inductionHypothesis =>
      obtain ⟨isName, areNames⟩ := List.forall_mem_cons.mp areNames
      obtain ⟨items, text_eq, entries_eq⟩ := inductionHypothesis areNames
      refine ⟨first.1.item first.2 isName :: items, ?_, ?_⟩
      · rw [List.flatMap_cons, text_eq]
        rfl
      · rw [List.map_cons, entries_eq]
        rfl

/-- What is written for the entries of a map is read as the map. -/
theorem read_writeAll {values : Dict String} (areNames : ∀ name ∈ values.keys, IsName name)
    {written : List (Style × String × String)} (same : (written.map Prod.snd).Perm values.toList)
    {lead : List Char} (blank : ∀ char ∈ lead, isBlank char = true) :
    read (String.ofList (lead ++ writeAll written)) = .ok values := by
  have writtenNames : ∀ item ∈ written, IsName item.2.1 := by
    intro item member
    have isEntry := same.mem_iff.mp (List.mem_map_of_mem member)
    exact areNames item.2.1 (List.mem_map_of_mem isEntry)
  obtain ⟨items, text_eq, entries_eq⟩ := exists_items_of_written writtenNames
  have spells : Spells items (String.ofList (lead ++ writeAll written)).toList :=
    ⟨lead, blank, by rw [String.toList_ofList, text_eq]⟩
  rw [read_of_spells spells, entries_eq, Dict.ofList_of_perm same]

end PseudoAttribute

namespace Instruction

open PseudoAttribute

theorem readData_eq_ok_iff {target data : String} {values : Dict String} :
    readData target data = .ok values ↔ read data = .ok values := by
  unfold readData
  split <;> simp [*]

/-- The data of an instruction is read exactly if it is spelled as white space and items, and
each name has the value of its last item; all other data makes the instruction invalid. The
slices that are taken are in bounds. So the entries of a map are read back however they are
written: in any order, with either quote, and with any white space. -/
theorem data_is_read_as_spelled (target : String) :
    (∀ data values, readData target data = .ok values ↔
        ∃ items, Spells items data.toList ∧ ∀ name, values.get? name = lastValue? name items) ∧
      (∀ data, (∃ reason, readData target data = .error (.invalidInstruction target reason)) ↔
        ¬∃ items, Spells items data.toList) ∧
      (∀ chars, SlicesInBounds chars) ∧
      ∀ values : Dict String, (∀ name ∈ values.keys, IsName name) →
        ∀ written : List (Style × String × String),
          (written.map Prod.snd).Perm values.toList →
            ∀ lead : List Char, (∀ char ∈ lead, Text.isBlank char = true) →
              readData target (String.ofList (lead ++ writeAll written)) = .ok values := by
  refine ⟨fun _ _ => readData_eq_ok_iff.trans read_eq_ok_iff, ?_, slicesInBounds, ?_⟩
  · intro data
    constructor
    · rintro ⟨reason, failed⟩ ⟨items, spells⟩
      rw [readData, read_of_spells spells] at failed
      cases failed
    · intro notSpelled
      unfold readData
      split
      · next values isRead =>
          obtain ⟨items, spells, -⟩ := read_eq_ok_iff.mp isRead
          exact absurd ⟨items, spells⟩ notSpelled
      · next fault _ => exact ⟨fault.message, rfl⟩
  · intro values areNames written same lead blank
    exact readData_eq_ok_iff.mpr (read_writeAll areNames same blank)

/-- Two values, each with the quote of the other one in it, are read back; data that ends within
quotes is not spelled. -/
theorem quotes_of_both_kinds_are_read_back :
    readData "taglib" " uri=\"it's &lt;&quot;&amp;\" prefix='\"x\"' " =
        .ok (Dict.ofList [("prefix", "\"x\""), ("uri", "it's <\"&")]) ∧
      ¬∃ items, Spells items "src=\"page.fsp".toList := by
  obtain ⟨-, isRefused, -, isReadBack⟩ := data_is_read_as_spelled "taglib"
  constructor
  · have areNames : ∀ name ∈ (Dict.ofList [("prefix", "\"x\""), ("uri", "it's <\"&")]).keys,
        IsName name := by
      decide +kernel
    exact isReadBack _ areNames
      [(Style.usual '"' rfl, "uri", "it's <\"&"), (Style.usual '\'' rfl, "prefix", "\"x\"")]
      (List.Perm.swap _ _ _) [' '] (Style.usual '"' rfl).endBlank
  · exact (isRefused _).mp ⟨"unterminated value for `src`", by decide +kernel⟩

end Instruction

end LivePage
