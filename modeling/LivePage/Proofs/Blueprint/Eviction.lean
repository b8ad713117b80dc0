import LivePage.Proofs.Blueprint.CacheReadings
import LivePage.Proofs.Location.TopFile

/-!
Contract: what a cache gives for a key that was removed.

Owns:
- a key that leads to the same URL when it is removed and later on is read anew in between;
- a reading from before the removal is given exactly when the key led elsewhere, or nowhere,
  while it was removed;
- a page whose file is missing when it is removed.

Does not own: keys that are not removed.
-/

namespace LivePage.BlueprintCache

/-- What is given later on and had been read before was there for the URL that the key leads to,
and has not been evicted since. -/
theorem Since.exists_entry_of_old {start last : BlueprintCache} {evicted : String → Prop}
    {files : FileSystem} {key : String} {shared : SharedBlueprint}
    (since : start.Since evicted last) (gave : (last.get files key).2 = .ok shared)
    (isOld : shared.serial < start.nextSerial) :
    ∃ text, start.locator.urlText? files key = some text ∧
      start.entries.get? text = some shared ∧ ¬evicted text := by
  have gets := gets_get last files key
  cases leads : last.locator.urlText? files key with
  | none =>
      have isNew := ((gets.of_nowhere leads).2 shared gave).2.1
      have later := since.serial_le
      omega
  | some text =>
      have isThere := gets.entry leads gave
      have wasThere := ((since.trans (Since.get gets)).old text shared isOld).mp isThere
      rw [not_or] at wasThere
      exact ⟨text, since.locator_eq ▸ leads, wasThere.1, wasThere.2.1⟩

section Removal

variable {cache : BlueprintCache} {log : List Attempt} (traced : cache.Traced log)
  (files : FileSystem) (key : String) (later : List CacheStep) (now : FileSystem)
  (shared : SharedBlueprint)

/-- What calls leave of a cache, of which a key was removed first. -/
theorem since_removal (cache : BlueprintCache) :
    cache.Since
      (fun text => ¬(cache.locator.urlText? files key ≠ some text ∧
        ∀ step ∈ later, ¬step.Evicts cache.locator text))
      ((cache.remove files key).1.performAll later).1 := by
  have removed := Since.remove cache files key
  refine (removed.trans (Since.performAll _ later)).congr fun text => ?_
  rw [removed.locator_eq, Classical.not_and_iff_not_or_not, Classical.not_not]
  simp

include traced

/-- A reading from before a removal is given for the key exactly if the key led elsewhere, or
nowhere, when it was removed. -/
theorem Traced.gives_old_iff :
    ((((cache.remove files key).1.performAll later).1.get now key).2 = .ok shared ∧
        ∃ text old, cache.entries.get? text = some old ∧ old.serial = shared.serial) ↔
      ∃ text, cache.locator.urlText? now key = some text ∧
        cache.locator.urlText? files key ≠ some text ∧
        cache.entries.get? text = some shared ∧
        ∀ step ∈ later, ¬step.Evicts cache.locator text := by
  have since := since_removal files key later cache
  constructor
  · rintro ⟨gave, _, old, isThere, same⟩
    obtain ⟨text, leads, wasThere, stays⟩ :=
      since.exists_entry_of_old gave (same ▸ traced.serial_lt isThere)
    obtain ⟨elsewhere, stays⟩ := Classical.not_not.mp stays
    exact ⟨text, leads, elsewhere, wasThere, stays⟩
  · rintro ⟨text, leads, elsewhere, isThere, stays⟩
    have stillThere := (since.old text shared (traced.serial_lt isThere)).mpr
      ⟨isThere, Classical.not_not.mpr ⟨elsewhere, stays⟩⟩
    refine ⟨?_, text, shared, isThere, rfl⟩
    rw [get_of_entry (since.locator_eq.symm ▸ leads) stillThere]

/-- A key that leads to the same URL as when it was removed gives what was read since. -/
theorem Traced.reads_again {text : String}
    (ledThere : cache.locator.urlText? files key = some text)
    (leads : cache.locator.urlText? now key = some text)
    (gave : (((cache.remove files key).1.performAll later).1.get now key).2 = .ok shared) :
    (∀ other old, cache.entries.get? other = some old → old.serial ≠ shared.serial) ∧
      ∃ attempt ∈ ((cache.remove files key).1.performAll later).2 ++ [⟨now, key, .ok shared⟩],
        attempt.Reads cache.parser cache.locator text shared := by
  have since := since_removal files key later cache
  have gets := gets_get ((cache.remove files key).1.performAll later).1 now key
  have isNew : cache.nextSerial ≤ shared.serial := by
    refine Nat.le_of_not_lt fun isOld => ?_
    obtain ⟨place, leadsToo, -, stays⟩ := since.exists_entry_of_old gave isOld
    rw [leads] at leadsToo
    exact (Classical.not_not.mp stays).1 (leadsToo ▸ ledThere)
  constructor
  · intro other old isThere same
    have isOld := traced.serial_lt isThere
    omega
  · have isThere := gets.entry (since.locator_eq.symm ▸ leads) gave
    have tracedNow := ((traced.remove files key).performAll later).get gets
    obtain ⟨attempt, member, reads⟩ := tracedNow.exists_reads isThere
    rw [List.append_assoc, gave] at member
    rw [(Since.get gets).parser_eq, (Since.get gets).locator_eq, since.parser_eq,
      since.locator_eq] at reads
    rcases List.mem_append.mp member with before | after
    · have isOld := traced.given attempt before shared reads.gave
      omega
    · exact ⟨attempt, after, reads⟩

end Removal

/-- Eviction. A reading from before a removal is given for the key later on exactly if the key
leads by then to a page that was cached, that the key did not lead to when it was removed, and
that has stayed since. A key that leads to the same URL at both times gives what was read after
the removal, from the files of that time. -/
theorem removed_page_is_read_again (parser : PageParser) (locator : Locator)
    (earlier : List CacheStep) (files : FileSystem) (key : String) (later : List CacheStep)
    (now : FileSystem) (shared : SharedBlueprint) :
    let cache := ((new parser locator).performAll earlier).1
    let since := (cache.remove files key).1.performAll later
    ((since.1.get now key).2 = .ok shared ∧
        (∃ text old, cache.entries.get? text = some old ∧ old.serial = shared.serial) ↔
      ∃ text, locator.urlText? now key = some text ∧ locator.urlText? files key ≠ some text ∧
        cache.entries.get? text = some shared ∧ ∀ step ∈ later, ¬step.Evicts locator text) ∧
    ∀ text, locator.urlText? files key = some text → locator.urlText? now key = some text →
      (since.1.get now key).2 = .ok shared →
        (∀ other old, cache.entries.get? other = some old → old.serial ≠ shared.serial) ∧
        ∃ attempt ∈ since.2 ++ [⟨now, key, .ok shared⟩],
          attempt.Reads parser locator text shared := by
  intro cache since
  have toCache := Since.performAll (new parser locator) earlier
  have traced : cache.Traced ((new parser locator).performAll earlier).2 :=
    (Traced.new parser locator).performAll earlier
  have isParser : cache.parser = parser := toCache.parser_eq
  have isLocator : cache.locator = locator := toCache.locator_eq
  rw [← isParser, ← isLocator]
  exact ⟨traced.gives_old_iff files key later now shared,
    fun text => traced.reads_again files key later now shared⟩

/-! ### A page whose file is missing when it is removed -/

/-- A file system with one page, at its top. -/
def onePage (markup : String) : FileSystem :=
  FileSystem.empty.put ["page"] (.file (Text.encodeUtf8 markup))

private theorem missing_page : (⟨[]⟩ : Locator).urlText? FileSystem.empty "page" = none := by
  have walked : FileSystem.empty.walk FileSystem.linkLimit [] ["", "page"] = .error .notFound := by
    have atTop : FileSystem.empty.entry? [] = some .directory := rfl
    have absent : FileSystem.empty.entry? ["page"] = none := rfl
    have short : ¬Text.byteLength "page" > FileSystem.nameLimit := by decide +kernel
    rw [FileSystem.walk, FileSystem.walk]
    simp [atTop, absent, short]
  have canonical : FileSystem.empty.canonicalize "//page" = .error .notFound :=
    (FileSystem.canonicalize_of_parts (by decide) (by decide) (by decide)).trans walked
  have isText : (⟨[]⟩ : Locator).pathText "page" = .ok "//page" := rfl
  have notFound : (⟨[]⟩ : Locator).normalize FileSystem.empty "page" =
      .error (.notFound (Text.trimText "page")) := by
    rw [Locator.normalize_eq, isText]
    simp only [Locator.contain, canonical]
  exact Locator.urlText?_of_error notFound

section OnePage

variable {markup : String} {cache : BlueprintCache}
  (holds : (onePage markup).HoldsAtTop "/page" "page" (Text.encodeUtf8 markup))
  (fromTop : cache.locator = ⟨[]⟩)

include holds fromTop

private theorem onePage_normalize :
    cache.locator.normalize (onePage markup) "page" = .ok (Url.ofFilePath ["page"]) := by
  have canonical : (onePage markup).canonicalize "//page" = .ok ["page"] :=
    (FileSystem.canonicalize_of_parts (by decide) (by decide) (by decide)).trans holds.walked
  have isFile : (onePage markup).isFile ["page"] = true := by
    rw [FileSystem.isFile, holds.held]
  have linkFree := FileSystem.linkFree_of_canonicalize canonical
  rw [fromTop]
  exact Locator.normalize_eq_ok_iff.mpr
    ⟨["page"], ⟨"//page", rfl, canonical⟩, ⟨isFile, List.nil_prefix, linkFree⟩, rfl⟩

private theorem onePage_leads :
    cache.locator.urlText? (onePage markup) "page" = some "file:///page" := by
  rw [Locator.urlText?_of_ok (onePage_normalize holds fromTop)]
  decide +kernel

private theorem onePage_get {blueprint : Blueprint}
    (absent : cache.entries.get? "file:///page" = none)
    (parsed : cache.parser.parse (onePage markup) ⟨markup, some (Url.ofFilePath ["page"])⟩ =
      .ok blueprint) :
    cache.get (onePage markup) "page" =
      ({ cache with
          entries := cache.entries.insert "file:///page" ⟨cache.nextSerial, blueprint⟩
          nextSerial := cache.nextSerial + 1 },
        .ok ⟨cache.nextSerial, blueprint⟩) := by
  have url_eq : (Url.ofFilePath ["page"]).text = "file:///page" := by decide +kernel
  have isSource : PageSource.ofUrl (onePage markup) (Url.ofFilePath ["page"]) =
      .ok ⟨markup, some (Url.ofFilePath ["page"])⟩ :=
    PageSource.ofUrl_of_holdsAtTop rfl (by decide +kernel) holds (Text.decodeUtf8?_encodeUtf8 _)
  rw [get, onePage_normalize holds fromTop]
  simp only [getAt, url_eq, absent, readPage, isSource, parsed, share]

end OnePage

private theorem onePage_outlives {parser : PageParser} {before after : String}
    {page pageNew : Blueprint}
    (holds : (onePage before).HoldsAtTop "/page" "page" (Text.encodeUtf8 before))
    (holdsNew : (onePage after).HoldsAtTop "/page" "page" (Text.encodeUtf8 after))
    (parsed : parser.parse (onePage before) ⟨before, some (Url.ofFilePath ["page"])⟩ = .ok page)
    (parsedNew : parser.parse (onePage after) ⟨after, some (Url.ofFilePath ["page"])⟩ =
      .ok pageNew) :
    let cache := ((new parser ⟨[]⟩).get (onePage before) "page").1
    cache.entries.get? "file:///page" = some ⟨0, page⟩ ∧
      ((cache.remove FileSystem.empty "page").1.get (onePage after) "page").2 = .ok ⟨0, page⟩ ∧
      ((cache.remove (onePage before) "page").1.get (onePage after) "page").2 =
        .ok ⟨1, pageNew⟩ := by
  intro cache
  have given : (new parser ⟨[]⟩).get (onePage before) "page" =
      (⟨parser, ⟨[]⟩, Dict.empty.insert "file:///page" ⟨0, page⟩, 1, some []⟩, .ok ⟨0, page⟩) :=
    onePage_get holds rfl (Dict.get?_empty _) parsed
  have isCache : cache = ⟨parser, ⟨[]⟩, Dict.empty.insert "file:///page" ⟨0, page⟩, 1, some []⟩ :=
    congrArg Prod.fst given
  clear_value cache
  have fromTop : cache.locator = ⟨[]⟩ := by rw [isCache]
  have isThere : cache.entries.get? "file:///page" = some ⟨0, page⟩ := by
    rw [isCache, Dict.get?_insert, if_pos rfl]
  refine ⟨isThere, ?_, ?_⟩
  · rw [remove_eq, fromTop, missing_page]
    exact congrArg Prod.snd (get_of_entry (onePage_leads holdsNew fromTop) isThere)
  · have absent : (cache.entries.erase "file:///page").get? "file:///page" = none := by
      rw [Dict.get?_erase, if_pos rfl]
    have sameParser : cache.parser = parser := by rw [isCache]
    have isNext : cache.nextSerial = 1 := by rw [isCache]
    have again := @onePage_get after { cache with entries := cache.entries.erase "file:///page" }
      holdsNew fromTop pageNew absent (sameParser ▸ parsedNew)
    have isNew : (⟨cache.nextSerial, pageNew⟩ : SharedBlueprint) = ⟨1, pageNew⟩ := by rw [isNext]
    rw [remove_eq, onePage_leads holds fromTop, ← isNew]
    exact congrArg Prod.snd again

/-- If the file is missing when its page is removed, then the page as it was is given again once
there is a file, whatever it holds. If the file is there, then the page is read from the new
one. -/
theorem page_without_file_outlives_removal :
    let locator : Locator := ⟨[]⟩
    let parser := (PageParser.new .core).withLocator locator
    let cache := ((new parser locator).get (onePage "<fsp/>") "page").1
    let rewritten := onePage "<fsp><span/></fsp>"
    ∃ old new, cache.entries.get? "file:///page" = some old ∧
      ((cache.remove FileSystem.empty "page").1.get rewritten "page").2 = .ok old ∧
      ((cache.remove (onePage "<fsp/>") "page").1.get rewritten "page").2 = .ok new ∧
      old.blueprint.tree.size = 1 ∧ new.blueprint.tree.size = 2 := by
  intro locator parser cache rewritten
  have holds : (onePage "<fsp/>").HoldsAtTop "/page" "page" (Text.encodeUtf8 "<fsp/>") := by
    constructor <;> decide +kernel
  have holdsNew : rewritten.HoldsAtTop "/page" "page" (Text.encodeUtf8 "<fsp><span/></fsp>") := by
    constructor <;> decide +kernel
  obtain ⟨page, parsed, small⟩ : ∃ page, parser.parse (onePage "<fsp/>")
      ⟨"<fsp/>", some (Url.ofFilePath ["page"])⟩ = .ok page ∧ page.tree.size = 1 := by
    have document : (PageSource.mk "<fsp/>" (some (Url.ofFilePath ["page"]))).document =
        .ok ⟨[.element ⟨none, "fsp", .unbound⟩ [] []]⟩ := rfl
    simp only [PageParser.parse, PageParser.run, document]
    exact ⟨_, rfl, rfl⟩
  obtain ⟨pageNew, parsedNew, large⟩ : ∃ page, parser.parse rewritten
      ⟨"<fsp><span/></fsp>", some (Url.ofFilePath ["page"])⟩ = .ok page ∧ page.tree.size = 2 := by
    have document : (PageSource.mk "<fsp><span/></fsp>"
          (some (Url.ofFilePath ["page"]))).document =
        .ok ⟨[.element ⟨none, "fsp", .unbound⟩ []
          [.element ⟨none, "span", .unbound⟩ [] []]]⟩ := rfl
    simp only [PageParser.parse, PageParser.run, document]
    exact ⟨_, rfl, rfl⟩
  obtain ⟨isThere, givenAgain, readAnew⟩ := onePage_outlives holds holdsNew parsed parsedNew
  exact ⟨⟨0, page⟩, ⟨1, pageNew⟩, isThere, givenAgain, readAnew, small, large⟩

end LivePage.BlueprintCache
