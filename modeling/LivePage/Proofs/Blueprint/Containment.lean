import LivePage.Proofs.Blueprint.FilesRead

/-!
Contract: pages are read from below the web root only.

Owns:
- every file that is read for a page is one that the locator holds;
- keys and references that lead to no such file give errors, except for keys that are
  markup;
- what lies outside the root has no influence on any page.

Does not own: what is read of the files, and pages made without a locator.
-/

namespace LivePage

open Text (encodeUtf8)

/-! ## Imports -/

namespace Instruction

theorem normalize_of_importedLocation {files : FileSystem} {locator : Locator} {cursor : Cursor}
    {data : String} {url : Url}
    (located : importedLocation ⟨files, some locator, cursor⟩ data = .ok url) :
    ∃ key, locator.normalize files key = .ok url := by
  simp only [importedLocation, importedUrl, bind, Except.bind] at located
  split at located
  · cases located
  · next reference _ =>
      cases resolved : locator.resolve files cursor.base reference with
      | error error =>
          simp only [resolved] at located
          cases located
      | ok found =>
          simp only [resolved, Except.ok.injEq] at located
          obtain ⟨key, -, normalized⟩ := Locator.resolve_eq_ok resolved
          exact ⟨key, located ▸ normalized⟩

end Instruction

namespace InstructionCall

variable {files : FileSystem} {locator : Locator} {call : InstructionCall}

theorem holds_of_fileRead? {path : Path} (read : call.fileRead? files (some locator) = some path) :
    locator.Holds files path ∧ files.canonicalize path.text = .ok path := by
  unfold fileRead? at read
  split at read
  · split at read
    · next url located =>
        obtain ⟨key, found⟩ := Instruction.normalize_of_importedLocation located
        exact Locator.holds_of_normalize found read
    · cases read
  · cases read

/-- A call of an import whose reference leads to no file that the locator holds. -/
def Misled (files : FileSystem) (locator : Locator) (call : InstructionCall) : Prop :=
  call.target = Instruction.importTarget ∧
    ∀ reference path, Instruction.importReference call.data = .ok reference →
      locator.ReferenceLeadsTo files call.cursor.base reference path →
      ¬locator.Holds files path

theorem Misled.refused (misled : call.Misled files locator) :
    call.Refused files (some locator) := by
  obtain ⟨isImport, elsewhere⟩ := misled
  refine ⟨isImport, ?_⟩
  rw [Instruction.importedSource_eq, Instruction.importedLocation]
  cases isReference : Instruction.importReference call.data with
  | error error => exact ⟨error, rfl⟩
  | ok reference =>
      obtain ⟨reason, failed⟩ := Locator.exists_resolve_eq_error
        (fun path => elsewhere reference path isReference)
      refine ⟨.source reason, ?_⟩
      simp only [bind, Except.bind, Instruction.importedUrl, failed]

end InstructionCall

/-! ## Pages -/

namespace PageParser

variable {parser : PageParser} {files : FileSystem} {locator : Locator} {path : Path}

theorem holds_of_mem_filesImported (shared : parser.locator = some locator) {source : PageSource}
    (read : path ∈ parser.filesImported files source) :
    locator.Holds files path ∧ files.canonicalize path.text = .ok path := by
  obtain ⟨call, -, read⟩ := List.mem_filterMap.mp read
  exact InstructionCall.holds_of_fileRead? (shared ▸ read)

theorem holds_of_mem_filesReadAt (shared : parser.locator = some locator) {key : String}
    {url : Url} (found : locator.normalize files key = .ok url)
    (read : path ∈ parser.filesReadAt files url) :
    locator.Holds files path ∧ files.canonicalize path.text = .ok path := by
  rcases List.mem_append.mp read with own | imported
  · exact Locator.holds_of_normalize found (Option.mem_toList.mp own)
  · split at imported
    · exact holds_of_mem_filesImported shared imported
    · cases imported

theorem holds_of_mem_filesReadForKey (shared : parser.locator = some locator) {key : String}
    (read : path ∈ parser.filesReadForKey files key) :
    locator.Holds files path ∧ files.canonicalize path.text = .ok path := by
  unfold filesReadForKey at read
  rw [shared] at read
  dsimp only at read
  split at read
  · next url found => exact holds_of_mem_filesReadAt shared found read
  · cases read

/-- A page fails if an import in it, at any depth, leads to no file that the locator holds. -/
theorem parse_fails (reads : parser.ReadsByImport) (shared : parser.locator = some locator)
    {source : PageSource} {call : InstructionCall}
    (called : call ∈ (parser.run files source).1.calls) (misled : call.Misled files locator) :
    ∃ error, parser.parse files source = .error error := by
  obtain ⟨error, failed⟩ := run_fails reads called (shared ▸ misled.refused)
  refine ⟨error, ?_⟩
  unfold parse
  generalize parser.run files source = result at failed ⊢
  obtain ⟨last, outcome⟩ := result
  cases failed
  rfl

theorem parseKey_fails (shared : parser.locator = some locator) {key : String}
    (elsewhere : ∀ path, locator.LeadsTo files key path → ¬locator.Holds files path) :
    ∃ error, parser.parseKey files key = .error error := by
  obtain ⟨reason, notFound⟩ := Locator.exists_normalize_eq_error elsewhere
  refine ⟨.source reason, ?_⟩
  simp only [parseKey, sourceOfKey, shared, PageSource.ofKey, notFound]

end PageParser

/-! ## The cache -/

namespace BlueprintCache

variable {cache : BlueprintCache} {files : FileSystem} {key : String}

theorem holds_of_mem_filesRead (shared : cache.parser.locator = some cache.locator) {path : Path}
    (read : path ∈ cache.filesRead files key) :
    cache.locator.Holds files path ∧ files.canonicalize path.text = .ok path := by
  unfold filesRead at read
  split at read
  · next url found =>
      split at read
      · cases read
      · exact PageParser.holds_of_mem_filesReadAt shared found read
  · split at read
    · exact PageParser.holds_of_mem_filesImported shared read
    · cases read

/-- A key that leads to no file that the locator holds gives an error, unless it is markup
and does not lead out of the root. -/
theorem get_fails
    (elsewhere : ∀ path, cache.locator.LeadsTo files key path → ¬cache.locator.Holds files path) :
    (∃ error, (cache.get files key).2 = .error error) ∨
      isInlineMarkup key = true ∧ cache.get files key = cache.readInline files key ∧
        ∀ path, cache.locator.LeadsTo files key path → cache.locator.root <+: path := by
  obtain ⟨reason, notFound⟩ := Locator.exists_normalize_eq_error elsewhere
  rw [get_of_error notFound]
  split
  · next taken =>
      refine .inr ⟨isInlineMarkup_of_takesForMarkup taken, rfl, ?_⟩
      intro path leads
      apply Classical.byContradiction
      intro outside
      -- What leads out of the root is refused as such, which is never taken for markup.
      have refused := Locator.normalize_of_outside leads outside
      obtain rfl := Except.error.inj (notFound.symm.trans refused)
      cases taken
  · exact .inl ⟨_, rfl⟩

/-- Containment. With the locator of a web root, every file that is read for a key or by an
imported page, at any depth, is a regular file below the root by its link-free path, and the
contents of other files do not matter. A key or a reference that leads to no such file gives
an error, except that the cache reads a key of markup as a page unless it leads out of the
root. File systems that differ in the contents of files outside the root give the same. -/
theorem reading_stays_below_root {files : FileSystem} {webRoot : String} {cache : BlueprintCache}
    (rooted : Locator.new files webRoot = .ok cache.locator)
    (shared : cache.parser.locator = some cache.locator) (reads : cache.parser.ReadsByImport) :
    (∀ key path, path ∈ cache.filesRead files key ∨ path ∈ cache.parser.filesReadForKey files key ∨
        (∃ source, path ∈ cache.parser.filesImported files source) →
      cache.locator.Holds files path ∧ files.canonicalize path.text = .ok path) ∧
    (∀ key other, files.SameBut (· ∉ cache.filesRead files key) other →
      cache.get other key = cache.get files key) ∧
    (∀ key other, files.SameBut (· ∉ cache.parser.filesReadForKey files key) other →
      cache.parser.parseKey other key = cache.parser.parseKey files key) ∧
    (∀ source other, files.SameBut (· ∉ cache.parser.filesImported files source) other →
      cache.parser.parse other source = cache.parser.parse files source) ∧
    (∀ key, (∀ path, cache.locator.LeadsTo files key path → ¬cache.locator.Holds files path) →
      (∃ error, cache.parser.parseKey files key = .error error) ∧
      ((∃ error, (cache.get files key).2 = .error error) ∨
        isInlineMarkup key = true ∧ cache.get files key = cache.readInline files key ∧
          ∀ path, cache.locator.LeadsTo files key path → cache.locator.root <+: path)) ∧
    (∀ source, ∀ call ∈ (cache.parser.run files source).1.calls,
      call.Misled files cache.locator → ∃ error, cache.parser.parse files source = .error error) ∧
    ∀ other, files.SameBut (fun path => ¬cache.locator.root <+: path) other →
      Locator.new other webRoot = .ok cache.locator ∧
      (∀ key, cache.get other key = cache.get files key ∧
        cache.parser.parseKey other key = cache.parser.parseKey files key) ∧
      ∀ source, cache.parser.parse other source = cache.parser.parse files source := by
  refine ⟨?_, ?_, ?_, ?_, ?_, ?_, ?_⟩
  · rintro key path (ofCache | ofKey | ⟨source, imported⟩)
    · exact holds_of_mem_filesRead shared ofCache
    · exact PageParser.holds_of_mem_filesReadForKey shared ofKey
    · exact PageParser.holds_of_mem_filesImported shared imported
  · intro key other same
    exact get_same reads same (fun _ read notRead => notRead read)
  · intro key other same
    exact PageParser.parseKey_same reads same (fun _ read notRead => notRead read)
  · intro source other same
    exact PageParser.parse_same reads same (fun _ read notRead => notRead read)
  · intro key elsewhere
    exact ⟨PageParser.parseKey_fails shared elsewhere, get_fails elsewhere⟩
  · intro source call called misled
    exact PageParser.parse_fails reads shared called misled
  · intro other same
    have inside : ∀ {path : Path}, cache.locator.Holds files path ∧
        files.canonicalize path.text = .ok path → ¬¬cache.locator.root <+: path :=
      fun held outside => outside held.1.within
    refine ⟨(Locator.new_eq same webRoot).trans rooted, fun key => ⟨?_, ?_⟩, fun source => ?_⟩
    · exact get_same reads same (fun _ read => inside (holds_of_mem_filesRead shared read))
    · exact PageParser.parseKey_same reads same
        (fun _ read => inside (PageParser.holds_of_mem_filesReadForKey shared read))
    · exact PageParser.parse_same reads same
        (fun _ read => inside (PageParser.holds_of_mem_filesImported shared read))

/-! ### A page below the root, and one beside it -/

def sampleSite : FileSystem :=
  (FileSystem.empty.put ["site", "root", "page"] (.file (encodeUtf8 "<fsp/>"))).put
    ["site", "secret"] (.file (encodeUtf8 "<fsp/>"))

def sampleLocator : Locator := ⟨["site", "root"]⟩

def sampleCache : BlueprintCache :=
  new ((PageParser.new .core).withLocator sampleLocator) sampleLocator

private theorem page_canonical :
    sampleSite.canonicalize "/site/root/page" = .ok ["site", "root", "page"] :=
  FileSystem.canonicalize_of_linkFree (by decide) (by decide) (by decide) (by decide +kernel)

private theorem page_read : ["site", "root", "page"] ∈ sampleCache.filesRead sampleSite "page" := by
  have found : sampleLocator.normalize sampleSite "page" =
      .ok (Url.ofFilePath ["site", "root", "page"]) :=
    Locator.normalize_eq_ok_iff.mpr ⟨_, ⟨"/site/root/page", rfl, page_canonical⟩,
      ⟨by decide +kernel, by decide, by decide +kernel⟩, rfl⟩
  have read : PageSource.fileAt? sampleSite (Url.ofFilePath ["site", "root", "page"]) =
      some ["site", "root", "page"] :=
    PageSource.fileAt?_eq_some_iff.mpr
      ⟨by decide, "/site/root/page", by decide +kernel, page_canonical, by decide +kernel⟩
  have listed : sampleCache.filesRead sampleSite "page" =
      sampleCache.parser.filesReadAt sampleSite (Url.ofFilePath ["site", "root", "page"]) := by
    rw [filesRead, show sampleCache.locator = sampleLocator from rfl, found]
    rfl
  rw [listed, PageParser.filesReadAt, read]
  exact List.mem_cons_self

private theorem secret_leads :
    sampleLocator.LeadsTo sampleSite "../secret" ["site", "secret"] := by
  refine ⟨"/site/root/../secret", rfl, ?_⟩
  have down : sampleSite.LinkFree [] ["site", "root"] := by decide +kernel
  have aside : sampleSite.LinkFree ["site"] ["secret"] := by decide +kernel
  have isDirectory : sampleSite.entry? ["site", "root"] = some .directory := by decide +kernel
  calc sampleSite.canonicalize "/site/root/../secret"
      = sampleSite.walk FileSystem.linkLimit [] (["site", "root"] ++ ["..", "secret"]) :=
        FileSystem.canonicalize_of_parts (by decide) (by decide) (by decide)
    _ = sampleSite.walk FileSystem.linkLimit ["site", "root"] ["..", "secret"] :=
        FileSystem.walk_linkFree down _ _
    _ = sampleSite.walk FileSystem.linkLimit ["site"] (["secret"] ++ []) := by
        rw [FileSystem.walk, if_neg (Classical.not_not.mpr isDirectory), if_neg (by decide),
          if_pos rfl]
        rfl
    _ = .ok ["site", "secret"] := by
        rw [FileSystem.walk_linkFree aside, FileSystem.walk]
        rfl

theorem page_is_read_and_page_beside_root_is_refused :
    Locator.new sampleSite "/site/root" = .ok sampleCache.locator ∧
      sampleCache.parser.locator = some sampleCache.locator ∧ sampleCache.parser.ReadsByImport ∧
      ["site", "root", "page"] ∈ sampleCache.filesRead sampleSite "page" ∧
      sampleCache.locator.Holds sampleSite ["site", "root", "page"] ∧
      sampleCache.locator.LeadsTo sampleSite "../secret" ["site", "secret"] ∧
      ∃ error, (sampleCache.get sampleSite "../secret").2 = .error error := by
  have rooted : Locator.new sampleSite "/site/root" = .ok sampleCache.locator := by
    have canonical : sampleSite.canonicalize "/site/root" = .ok ["site", "root"] :=
      FileSystem.canonicalize_of_linkFree (by decide) (by decide) (by decide) (by decide +kernel)
    rw [Locator.new, canonical]
    rfl
  have reads : sampleCache.parser.ReadsByImport := PageParser.readsByImport_of_builtIn rfl
  have elsewhere : ∀ path, sampleCache.locator.LeadsTo sampleSite "../secret" path →
      ¬sampleCache.locator.Holds sampleSite path := by
    intro path leads holds
    obtain rfl := Locator.LeadsTo.unique secret_leads leads
    exact absurd holds.within (by decide)
  have notMarkup : isInlineMarkup "../secret" = false := by decide
  obtain ⟨held, -, -, -, misled, -, -⟩ := reading_stays_below_root rooted rfl reads
  refine ⟨rooted, rfl, reads, page_read, (held _ _ (.inl page_read)).1, secret_leads, ?_⟩
  rcases (misled "../secret" elsewhere).2 with failed | ⟨isMarkup, -, -⟩
  · exact failed
  · rw [notMarkup] at isMarkup
    cases isMarkup

/-! ### A directory with a name like markup -/

/-- A key that leads to a directory gives a page if it is markup. -/
theorem directory_key_gives_page :
    let files := FileSystem.empty.put ["root", "<fsp", ">"] .directory
    let locator : Locator := ⟨["root"]⟩
    let cache := new ((PageParser.new .core).withLocator locator) locator
    Locator.new files "/root" = .ok cache.locator ∧
      cache.parser.locator = some cache.locator ∧ cache.parser.ReadsByImport ∧
      locator.LeadsTo files "<fsp/>" ["root", "<fsp", ">"] ∧
      ¬locator.Holds files ["root", "<fsp", ">"] ∧
      ∃ shared, (cache.get files "<fsp/>").2 = .ok shared := by
  intro files locator cache
  have canonical : files.canonicalize "/root" = .ok ["root"] :=
    FileSystem.canonicalize_of_linkFree (by decide) (by decide) (by decide) (by decide +kernel)
  have leads : files.canonicalize "/root/<fsp/>" = .ok ["root", "<fsp", ">"] :=
    FileSystem.canonicalize_of_linkFree (by decide) (by decide) (by decide) (by decide +kernel)
  have noFile : files.isFile ["root", "<fsp", ">"] = false := by decide +kernel
  have notFound : cache.locator.normalize files "<fsp/>" = .error (.notFound "<fsp/>") := by
    have isText : locator.pathText "<fsp/>" = .ok "/root/<fsp/>" := rfl
    have trimmed : Text.trimText "<fsp/>" = "<fsp/>" := by decide +kernel
    have within : Path.isWithin ["root", "<fsp", ">"] locator.root = true := by decide
    rw [show cache.locator = locator from rfl, Locator.normalize_eq, isText]
    simp only [Locator.contain, leads, within, noFile, trimmed]
    rfl
  have parsed : cache.parser.parse files (.ofText "<fsp/>") = .ok ⟨.empty, "<fsp/>", none⟩ := by
    have document : (PageSource.ofText "<fsp/>").document =
        .ok ⟨[.element ⟨none, "fsp", .unbound⟩ [] []]⟩ := rfl
    simp only [PageParser.parse, PageParser.run, document]
    rfl
  refine ⟨?_, rfl, PageParser.readsByImport_of_builtIn rfl, ⟨"/root/<fsp/>", rfl, leads⟩, ?_,
    ⟨0, ⟨.empty, "<fsp/>", none⟩⟩, ?_⟩
  · rw [Locator.new, canonical]
    rfl
  · intro holds
    rw [holds.regular] at noFile
    cases noFile
  · rw [get_of_error notFound, if_pos (by decide +kernel), readInline, parsed]
    rfl

end BlueprintCache

end LivePage
