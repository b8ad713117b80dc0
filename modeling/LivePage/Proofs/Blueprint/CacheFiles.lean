import LivePage.Proofs.Blueprint.CacheReadings
import LivePage.Proofs.Location.UrlText

/-!
Contract: keys, files, URLs and the entries of a cache.

Owns:
- accepted keys have the same URL exactly if they lead to the same file;
- the text of this URL is again a key of the file, alone and against any base;
- while the files stay, every file has at most one entry in a cache, and every entry one file.

Does not own: what becomes of entries when the files change.
-/

namespace LivePage

namespace Locator

variable {locator : Locator} {files : FileSystem}

/-- Accepted keys have the same URL exactly if they lead to the same file. -/
theorem eq_iff_of_normalize {key other : String} {url urlToo : Url}
    (found : locator.normalize files key = .ok url)
    (foundToo : locator.normalize files other = .ok urlToo) :
    (url = urlToo ↔
        ∃ path, locator.LeadsTo files key path ∧ locator.LeadsTo files other path) ∧
      (url.text = urlToo.text ↔ url = urlToo) := by
  obtain ⟨path, leads, holds, rfl⟩ := normalize_eq_ok_iff.mp found
  obtain ⟨pathToo, leadsToo, holdsToo, rfl⟩ := normalize_eq_ok_iff.mp foundToo
  refine ⟨⟨fun same => ?_, ?_⟩, fun same => ?_, congrArg Url.text⟩
  · obtain rfl := Url.eq_of_ofFilePath_eq holds.notRoot holdsToo.notRoot same
    exact ⟨path, leads, leadsToo⟩
  · rintro ⟨shared, leadsShared, leadsSharedToo⟩
    rw [leads.unique leadsShared, leadsToo.unique leadsSharedToo]
  · rw [Url.eq_of_text_ofFilePath_eq holds.notRoot holdsToo.notRoot same]

theorem LeadsTo.urlText? {key : String} {path : Path} (leads : locator.LeadsTo files key path)
    (holds : locator.Holds files path) :
    locator.urlText? files key = some (Url.ofFilePath path).text :=
  urlText?_of_ok (normalize_eq_ok_iff.mpr ⟨path, leads, holds, rfl⟩)

theorem exists_leadsTo_of_urlText? {key text : String}
    (leads : locator.urlText? files key = some text) :
    ∃ path, locator.LeadsTo files key path ∧ locator.Holds files path ∧
      text = (Url.ofFilePath path).text := by
  obtain ⟨url, found, rfl⟩ := urlText?_eq_some_iff.mp leads
  obtain ⟨path, leadsTo, holds, rfl⟩ := normalize_eq_ok_iff.mp found
  exact ⟨path, leadsTo, holds, rfl⟩

end Locator

namespace BlueprintCache

-- Their laws say what these do; unfolded, they would be run.
seal get remove precompile

/-! ## Entries and files -/

/-- Whether an entry is for a file: an attempt gave what the entry holds, and the key of the
attempt led to the file. -/
def EntryFor (locator : Locator) (run : BlueprintCache × List Attempt) (text : String)
    (path : Path) : Prop :=
  ∃ attempt ∈ run.2, ∃ shared, run.1.entries.get? text = some shared ∧
    attempt.outcome = .ok shared ∧ locator.LeadsTo attempt.files attempt.key path

section Run

variable {cache : BlueprintCache} {log : List Attempt} (traced : cache.Traced log)
  {text : String} {path : Path}

include traced

/-- The entry for a file stands at the text of the URL of this file. -/
theorem Traced.text_eq_of_entryFor (entry : EntryFor cache.locator (cache, log) text path) :
    path ≠ [] ∧ text = (Url.ofFilePath path).text := by
  obtain ⟨attempt, member, shared, isThere, gave, leads⟩ := entry
  have atText := (traced.known attempt member shared gave text shared isThere rfl).2
  obtain ⟨found, leadsToo, holds, rfl⟩ := Locator.exists_leadsTo_of_urlText? atText
  obtain rfl := leads.unique leadsToo
  exact ⟨holds.notRoot, rfl⟩

theorem Traced.exists_entryFor {shared : SharedBlueprint}
    (isThere : cache.entries.get? text = some shared) :
    ∃ path, EntryFor cache.locator (cache, log) text path := by
  obtain ⟨attempt, member, reads⟩ := traced.exists_reads isThere
  obtain ⟨path, leads, -, -⟩ := Locator.exists_leadsTo_of_urlText? reads.urlText?
  exact ⟨path, attempt, member, shared, isThere, reads.gave, leads⟩

theorem Traced.entryFor_iff {other : String} {pathToo : Path}
    (entry : EntryFor cache.locator (cache, log) text path)
    (entryToo : EntryFor cache.locator (cache, log) other pathToo) :
    text = other ↔ path = pathToo := by
  obtain ⟨notRoot, rfl⟩ := traced.text_eq_of_entryFor entry
  obtain ⟨notRootToo, rfl⟩ := traced.text_eq_of_entryFor entryToo
  exact ⟨Url.eq_of_text_ofFilePath_eq notRoot notRootToo, fun same => by rw [same]⟩

/-- The page of a key is cached exactly if there is an entry for the file that the key leads to. -/
theorem Traced.isCached_iff {files : FileSystem} {key : String}
    (leads : cache.locator.LeadsTo files key path) (holds : cache.locator.Holds files path) :
    cache.isCached files key = true ↔ ∃ text, EntryFor cache.locator (cache, log) text path := by
  rw [isCached_eq, leads.urlText? holds]
  constructor
  · intro contained
    obtain ⟨shared, isThere⟩ := Option.isSome_iff_exists.mp contained
    obtain ⟨found, entry⟩ := traced.exists_entryFor isThere
    obtain ⟨notRoot, sameText⟩ := traced.text_eq_of_entryFor entry
    obtain rfl := Url.eq_of_text_ofFilePath_eq holds.notRoot notRoot sameText
    exact ⟨_, entry⟩
  · rintro ⟨text, entry⟩
    obtain ⟨-, rfl⟩ := traced.text_eq_of_entryFor entry
    obtain ⟨attempt, -, shared, isThere, -⟩ := entry
    exact Option.isSome_iff_exists.mpr ⟨shared, isThere⟩

end Run

/-- Keys that lead to one file are one key to a cache. -/
theorem remove_get_of_leadsTo (cache : BlueprintCache) {files : FileSystem} {key other : String}
    {path : Path} (leads : cache.locator.LeadsTo files key path)
    (leadsToo : cache.locator.LeadsTo files other path) (holds : cache.locator.Holds files path) :
    cache.remove files key = cache.remove files other ∧
      ∀ shared, (cache.get files key).2 = .ok shared →
        (cache.get files key).1.get files other = ((cache.get files key).1, .ok shared) := by
  refine ⟨?_, fun shared gave => ?_⟩
  · rw [remove_eq, remove_eq, leads.urlText? holds, leadsToo.urlText? holds]
  · have gets := gets_get cache files key
    refine get_of_entry ?_ (gets.entry (leads.urlText? holds) gave)
    rw [(Since.get gets).locator_eq]
    exact leadsToo.urlText? holds

/-! ## One entry for a file -/

/-- The URL of an accepted key is that of the file that the key leads to, so two of these URLs
are the same exactly if the files are. Where a path comes back from its URL, as all paths do whose
names are not taken for drives, the text of the URL is a key of the file again, alone and against
any base. Whatever a cache was asked for, each of its entries is for one file, no two entries are
for the same one, and keys of one file find, remove and get the same. -/
theorem one_entry_for_one_file (locator : Locator) (files : FileSystem) :
    (∀ path : Path, path ≠ [] → (∀ name ∈ path, FileSystem.IsName name) → path.DriveFree →
      Url.ComesBack path) ∧
    (∀ key url, locator.normalize files key = .ok url →
      ∃ path, locator.LeadsTo files key path ∧ locator.Holds files path ∧
        url = Url.ofFilePath path ∧
        (files.WithoutNul → Url.ComesBack path → locator.normalize files url.text = .ok url ∧
          ∀ base, locator.resolve files base url.text = .ok url)) ∧
    (∀ key other url urlToo, locator.normalize files key = .ok url →
      locator.normalize files other = .ok urlToo →
        (url = urlToo ↔
          ∃ path, locator.LeadsTo files key path ∧ locator.LeadsTo files other path) ∧
        (url.text = urlToo.text ↔ url = urlToo)) ∧
    ∀ parser steps,
      let run := (new parser locator).performAll steps
      (∀ text shared, run.1.entries.get? text = some shared →
        ∃ path, EntryFor locator run text path) ∧
      (∀ text other path pathToo, EntryFor locator run text path →
        EntryFor locator run other pathToo → (text = other ↔ path = pathToo)) ∧
      ∀ key path, locator.LeadsTo files key path → locator.Holds files path →
        (run.1.isCached files key = true ↔ ∃ text, EntryFor locator run text path) ∧
        ∀ other, locator.LeadsTo files other path →
          run.1.remove files key = run.1.remove files other ∧
          ∀ shared, (run.1.get files key).2 = .ok shared →
            (run.1.get files key).1.get files other = ((run.1.get files key).1, .ok shared) := by
  refine ⟨fun path => Url.comesBack_of_driveFree, fun key url found => ?_,
    fun key other url urlToo => Locator.eq_iff_of_normalize, fun parser steps => ?_⟩
  · obtain ⟨path, leads, holds, rfl⟩ := Locator.normalize_eq_ok_iff.mp found
    exact ⟨path, leads, holds, rfl, fun noNul back =>
      ⟨holds.normalize_text noNul back, holds.resolve_text noNul back⟩⟩
  · intro run
    have traced : run.1.Traced run.2 := (Traced.new parser locator).performAll steps
    have isLocator : run.1.locator = locator :=
      (Since.performAll (new parser locator) steps).locator_eq
    clear_value run
    rw [← isLocator]
    refine ⟨fun text shared => traced.exists_entryFor,
      fun text other path pathToo => traced.entryFor_iff, fun key path leads holds => ?_⟩
    exact ⟨traced.isCached_iff leads holds,
      fun other leadsToo => remove_get_of_leadsTo run.1 leads leadsToo holds⟩

/-- A page whose name needs escapes, and a link to it: a path with dots, the link, and the text
of the URL are keys with the same URL. -/
theorem page_with_escapes_has_one_url :
    let path : Path := ["web", "50% é?#.fsp"]
    let files := (FileSystem.empty.put path (.file [])).put ["web", "alias"]
      (.link "50% é?#.fsp")
    let locator : Locator := ⟨["web"]⟩
    let url := Url.ofFilePath path
    files.WithoutNul ∧ url.text = "file:///web/50%25%20%C3%A9%3F%23.fsp" ∧
      locator.normalize files " //./50% é?#.fsp " = .ok url ∧
      locator.normalize files "alias" = .ok url ∧
      locator.normalize files url.text = .ok url ∧
      ∀ base, locator.resolve files base url.text = .ok url := by
  intro path files locator url
  have noNul : files.WithoutNul := by decide +kernel
  have linkFree : files.LinkFree [] path := by decide +kernel
  have holds : locator.Holds files path := ⟨by decide +kernel, by decide +kernel, linkFree⟩
  have driveFree : path.DriveFree := by
    constructor
    · intro letter _ isFirst
      have twoChars : "web".toList.length = 2 := by
        rw [Option.some.inj isFirst, String.toList_ofList]
        rfl
      exact absurd twoChars (by decide)
    · intro start letter mark _ isMark isLast
      have chars := congrArg (fun name => name.toList.getLast?) (Option.some.inj isLast)
      have ends : some 'p' = some mark := by simpa using chars
      rcases isMark with rfl | rfl <;> cases ends
  obtain ⟨comesBack, again, -, -⟩ := one_entry_for_one_file locator files
  have back := comesBack path (by decide) linkFree.isName driveFree
  -- Both walks come to the directory first, and go from there to the page.
  have isWeb : files.entry? ["web"] = some .directory := by decide +kernel
  have webFree : files.LinkFree [] ["web"] := by decide +kernel
  have pageFree : files.LinkFree ["web"] ["50% é?#.fsp"] := by decide +kernel
  have toWeb : ∀ rest, files.walk FileSystem.linkLimit [] ("web" :: rest) =
      files.walk FileSystem.linkLimit ["web"] rest :=
    FileSystem.walk_linkFree webFree _
  have toPage : ∀ links, files.walk links ["web"] ["50% é?#.fsp"] = .ok path := by
    intro links
    have walked := FileSystem.walk_linkFree pageFree links []
    rwa [List.append_nil, FileSystem.walk] at walked
  have byPath : locator.normalize files " //./50% é?#.fsp " = .ok url := by
    refine Locator.normalize_eq_ok_iff.mpr ⟨path, ⟨"/web/./50% é?#.fsp", rfl, ?_⟩, holds, rfl⟩
    have parts : FileSystem.partsOf "/web/./50% é?#.fsp" = "" :: ["web", ".", "50% é?#.fsp"] := by
      decide +kernel
    rw [FileSystem.canonicalize_of_parts (by decide) (by decide) parts, toWeb,
      FileSystem.walk_stay isWeb (.inr rfl), toPage]
  have byLink : locator.normalize files "alias" = .ok url := by
    refine Locator.normalize_eq_ok_iff.mpr ⟨path, ⟨"/web/alias", rfl, ?_⟩, holds, rfl⟩
    have parts : FileSystem.partsOf "/web/alias" = "" :: ["web", "alias"] := by decide +kernel
    have isLink : files.entry? (["web"] ++ ["alias"]) = some (.link "50% é?#.fsp") := by
      decide +kernel
    rw [FileSystem.canonicalize_of_parts (by decide) (by decide) parts, toWeb,
      FileSystem.linkLimit, FileSystem.walk_link (by decide +kernel) isWeb isLink]
    exact toPage _
  obtain ⟨found, -, holdsFound, same, ofText⟩ := again _ _ byPath
  obtain rfl := Url.eq_of_ofFilePath_eq holds.notRoot holdsFound.notRoot same
  exact ⟨noNul, by decide +kernel, byPath, byLink, ofText noNul back⟩

end BlueprintCache

end LivePage
