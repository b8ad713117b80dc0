import LivePage.Proofs.Blueprint.FilesRead

/-!
Contract: what a cache of blueprints goes through.

Owns:
- the calls to a cache, each with the files that there are at the time, and sequences of them;
- the attempts to get a page, those that reading ahead makes among them, and how they went;
- the ways in which getting a page can go;
- what calls leave of what a cache had before them.

Does not own: where the entries of a cache come from.
-/

namespace LivePage

/-- The text of the URL that a key leads to. -/
def Locator.urlText? (locator : Locator) (files : FileSystem) (key : String) : Option String :=
  match locator.normalize files key with
  | .ok url => some url.text
  | .error _ => none

namespace Locator

variable {locator : Locator} {files : FileSystem} {key : String}

theorem urlText?_of_ok {url : Url} (found : locator.normalize files key = .ok url) :
    locator.urlText? files key = some url.text := by
  rw [urlText?, found]

theorem urlText?_of_error {reason : SourceError}
    (notFound : locator.normalize files key = .error reason) :
    locator.urlText? files key = none := by
  rw [urlText?, notFound]

theorem urlText?_eq_some_iff {text : String} :
    locator.urlText? files key = some text ↔
      ∃ url, locator.normalize files key = .ok url ∧ url.text = text := by
  unfold urlText?
  cases locator.normalize files key <;> simp

end Locator

/-- Something asked of a cache. -/
inductive CacheCall where
  | get (key : String)
  | isCached (key : String)
  | remove (key : String)
  | clear
  | addPrecompile (key : String)
  | precompile
deriving DecidableEq

/-- A call and the files that there are at the time. -/
structure CacheStep where
  files : FileSystem
  call : CacheCall

namespace CacheStep

/-- Whether a step takes the page at a URL out of a cache, if it is there. -/
def Evicts (locator : Locator) (text : String) (step : CacheStep) : Prop :=
  match step.call with
  | .remove key => locator.urlText? step.files key = some text
  | .clear => True
  | _ => False

/-- The key that a step queues for reading ahead. -/
def queued? (step : CacheStep) : Option String :=
  match step.call with
  | .addPrecompile key => some key
  | _ => none

end CacheStep

/-- An attempt to get a page, with the files at the time, and how it went. -/
structure Attempt where
  files : FileSystem
  key : String
  outcome : Except CacheError SharedBlueprint

namespace BlueprintCache

-- Their laws say what these do; unfolded, they would be run.
seal get remove precompile

/-- Gets pages one after another. -/
def attemptAll (cache : BlueprintCache) (files : FileSystem) :
    List String → BlueprintCache × List Attempt
  | [] => (cache, [])
  | key :: rest =>
      let first := cache.get files key
      let others := first.1.attemptAll files rest
      (others.1, ⟨files, key, first.2⟩ :: others.2)

/-- The keys that reading ahead would try now. -/
def keysAhead (cache : BlueprintCache) : List String :=
  (cache.pending.getD []).map withDefaultExtension

/-- The cache after a step, and the attempts that the step made. -/
def perform (cache : BlueprintCache) (step : CacheStep) : BlueprintCache × List Attempt :=
  match step.call with
  | .get key =>
      let result := cache.get step.files key
      (result.1, [⟨step.files, key, result.2⟩])
  | .isCached _ => (cache, [])
  | .remove key => ((cache.remove step.files key).1, [])
  | .clear => (cache.clear, [])
  | .addPrecompile key => ((cache.addPrecompile key).1, [])
  | .precompile =>
      ((cache.precompile step.files).1,
        ({ cache with pending := none }.attemptAll step.files cache.keysAhead).2)

/-- The cache after steps, and the attempts that they made. -/
def performAll (cache : BlueprintCache) : List CacheStep → BlueprintCache × List Attempt
  | [] => (cache, [])
  | step :: rest =>
      let first := cache.perform step
      let others := first.1.performAll rest
      (others.1, first.2 ++ others.2)

/-! ## Reading ahead -/

/-- How many attempts gave a page, and how many did not. -/
def tally (attempts : List Attempt) : PrecompileReport :=
  ⟨attempts.countP (fun attempt => attempt.outcome.isOk),
    attempts.countP (fun attempt => !attempt.outcome.isOk)⟩

theorem compiled_add_failed_tally (attempts : List Attempt) :
    (tally attempts).compiled + (tally attempts).failed = attempts.length := by
  simp [tally, List.length_eq_countP_add_countP fun attempt : Attempt => attempt.outcome.isOk]

theorem precompileAll_cons (cache : BlueprintCache) (files : FileSystem)
    (report : PrecompileReport) (key : String) (keys : List String) :
    precompileAll files cache report (key :: keys) =
      match cache.get files (withDefaultExtension key) with
      | (next, .ok _) =>
          precompileAll files next { report with compiled := report.compiled + 1 } keys
      | (next, .error _) =>
          precompileAll files next { report with failed := report.failed + 1 } keys :=
  rfl

theorem precompileAll_eq (cache : BlueprintCache) (files : FileSystem)
    (report : PrecompileReport) (keys : List String) :
    precompileAll files cache report keys =
      let result := cache.attemptAll files (keys.map withDefaultExtension)
      (result.1, ⟨report.compiled + (tally result.2).compiled,
        report.failed + (tally result.2).failed⟩) := by
  induction keys generalizing cache report with
  | nil => rfl
  | cons key rest inductionHypothesis =>
      rw [precompileAll_cons, List.map_cons, attemptAll]
      cases isNext : cache.get files (withDefaultExtension key) with
      | mk next outcome =>
          cases outcome with
          | ok shared => simp [inductionHypothesis, tally, Except.isOk, Except.toBool]; omega
          | error error => simp [inductionHypothesis, tally, Except.isOk, Except.toBool]; omega

/-- Reading ahead is getting the queued pages one after another, once. -/
theorem precompile_eq (cache : BlueprintCache) (files : FileSystem) :
    cache.precompile files =
      let result := { cache with pending := none }.attemptAll files cache.keysAhead
      (result.1, tally result.2) := by
  unfold precompile keysAhead
  cases isPending : cache.pending with
  | none =>
      obtain ⟨parser, locator, entries, nextSerial, pending⟩ := cache
      obtain rfl : pending = none := isPending
      rfl
  | some keys => simp [precompileAll_eq]

theorem map_key_attemptAll (cache : BlueprintCache) (files : FileSystem) (keys : List String) :
    (cache.attemptAll files keys).2.map Attempt.key = keys := by
  induction keys generalizing cache with
  | nil => rfl
  | cons key rest inductionHypothesis =>
      rw [attemptAll, List.map_cons, inductionHypothesis]

/-! ## Getting a page -/

/-- How getting a page can go: it is there, it is read from its file, it is read from the key
itself, or there is none. -/
inductive Gets (cache : BlueprintCache) (files : FileSystem) (key : String) :
    BlueprintCache × Except CacheError SharedBlueprint → Prop
  | cached {url : Url} {shared : SharedBlueprint}
      (found : cache.locator.normalize files key = .ok url)
      (isThere : cache.entries.get? url.text = some shared) :
      Gets cache files key (cache, .ok shared)
  | read {url : Url} {source : PageSource} {blueprint : Blueprint}
      (found : cache.locator.normalize files key = .ok url)
      (absent : cache.entries.get? url.text = none)
      (isSource : PageSource.ofUrl files url = .ok source)
      (parsed : cache.parser.parse files source = .ok blueprint) :
      Gets cache files key
        ({ cache with
            entries := cache.entries.insert url.text ⟨cache.nextSerial, blueprint⟩
            nextSerial := cache.nextSerial + 1 },
          .ok ⟨cache.nextSerial, blueprint⟩)
  | inline {reason : SourceError} {blueprint : Blueprint}
      (notFound : cache.locator.normalize files key = .error reason)
      (isMarkup : isInlineMarkup key = true)
      (parsed : cache.parser.parse files (.ofText key) = .ok blueprint) :
      Gets cache files key
        ({ cache with nextSerial := cache.nextSerial + 1 }, .ok ⟨cache.nextSerial, blueprint⟩)
  | failed (error : CacheError) : Gets cache files key (cache, .error error)

theorem gets_getAt {cache : BlueprintCache} {files : FileSystem} {key : String} {url : Url}
    (found : cache.locator.normalize files key = .ok url) :
    Gets cache files key (cache.getAt files key url) := by
  unfold getAt
  split
  · next shared isThere => exact .cached found isThere
  · next absent =>
      unfold readPage
      cases isSource : PageSource.ofUrl files url with
      | error reason => exact .failed _
      | ok source =>
          dsimp only
          cases parsed : cache.parser.parse files source with
          | error reason => exact .failed _
          | ok blueprint => exact .read found absent isSource parsed

theorem gets_get (cache : BlueprintCache) (files : FileSystem) (key : String) :
    Gets cache files key (cache.get files key) := by
  cases found : cache.locator.normalize files key with
  | ok url =>
      rw [get, found]
      exact gets_getAt found
  | error reason =>
      rw [get_of_error found]
      split
      · next taken =>
          unfold readInline
          cases parsed : cache.parser.parse files (.ofText key) with
          | error reason => exact .failed _
          | ok blueprint => exact .inline found (isInlineMarkup_of_takesForMarkup taken) parsed
      · exact .failed _

section Gets

variable {cache : BlueprintCache} {files : FileSystem} {key text : String}
  {shared : SharedBlueprint} {result : BlueprintCache × Except CacheError SharedBlueprint}

/-- What is cached is given again, whatever the files hold now. -/
theorem get_of_entry (leads : cache.locator.urlText? files key = some text)
    (isThere : cache.entries.get? text = some shared) :
    cache.get files key = (cache, .ok shared) := by
  obtain ⟨url, found, rfl⟩ := Locator.urlText?_eq_some_iff.mp leads
  rw [get, found]
  dsimp only
  rw [getAt, isThere]

/-- What is given for the page at a URL is cached then. -/
theorem Gets.entry (gets : Gets cache files key result)
    (leads : cache.locator.urlText? files key = some text) (gave : result.2 = .ok shared) :
    result.1.entries.get? text = some shared := by
  cases gets with
  | cached found isThere =>
      cases gave
      rw [Locator.urlText?_of_ok found, Option.some.injEq] at leads
      exact leads ▸ isThere
  | read found absent isSource parsed =>
      cases gave
      rw [Locator.urlText?_of_ok found, Option.some.injEq] at leads
      rw [Dict.get?_insert, if_pos leads.symm]
  | inline notFound isMarkup parsed =>
      rw [Locator.urlText?_of_error notFound] at leads
      cases leads
  | failed error => cases gave

theorem Gets.eq_of_error (gets : Gets cache files key result) {error : CacheError}
    (failed : result.2 = .error error) : result.1 = cache := by
  cases gets with
  | cached found isThere => cases failed
  | read found absent isSource parsed => cases failed
  | inline notFound isMarkup parsed => cases failed
  | failed error => rfl

/-- A key that leads to no page leaves the entries. What it gives is read from the key itself,
under a new number. -/
theorem Gets.of_nowhere (gets : Gets cache files key result)
    (nowhere : cache.locator.urlText? files key = none) :
    result.1.entries = cache.entries ∧ ∀ shared, result.2 = .ok shared →
      isInlineMarkup key = true ∧ shared.serial = cache.nextSerial ∧
        cache.parser.parse files (.ofText key) = .ok shared.blueprint := by
  cases gets with
  | cached found isThere =>
      rw [Locator.urlText?_of_ok found] at nowhere
      cases nowhere
  | read found absent isSource parsed =>
      rw [Locator.urlText?_of_ok found] at nowhere
      cases nowhere
  | inline notFound isMarkup parsed =>
      refine ⟨rfl, ?_⟩
      rintro _ ⟨⟩
      exact ⟨isMarkup, rfl, parsed⟩
  | failed error =>
      refine ⟨rfl, ?_⟩
      rintro _ ⟨⟩

end Gets

/-! ## What calls leave -/

theorem isCached_eq (cache : BlueprintCache) (files : FileSystem) (key : String) :
    cache.isCached files key =
      match cache.locator.urlText? files key with
      | some text => cache.entries.contains text
      | none => false := by
  unfold isCached Locator.urlText?
  cases cache.locator.normalize files key <;> rfl

theorem remove_eq (cache : BlueprintCache) (files : FileSystem) (key : String) :
    cache.remove files key =
      match cache.locator.urlText? files key with
      | some text =>
          ({ cache with entries := cache.entries.erase text }, cache.entries.get? text)
      | none => (cache, none) := by
  unfold remove Locator.urlText?
  cases cache.locator.normalize files key <;> rfl

/-- One cache comes from another one: of what was there before, exactly that has gone which was
evicted. Numbers of readings are drawn upwards, so a reading from before has a lower number. -/
structure Since (start : BlueprintCache) (evicted : String → Prop) (last : BlueprintCache) :
    Prop where
  parser_eq : last.parser = start.parser
  locator_eq : last.locator = start.locator
  serial_le : start.nextSerial ≤ last.nextSerial
  old : ∀ text shared, shared.serial < start.nextSerial →
    (last.entries.get? text = some shared ↔
      start.entries.get? text = some shared ∧ ¬evicted text)

namespace Since

variable {start middle last : BlueprintCache} {evicted : String → Prop}

theorem refl (cache : BlueprintCache) : cache.Since (fun _ => False) cache :=
  ⟨rfl, rfl, Nat.le_refl _, fun _ _ _ => by simp⟩

theorem trans {evictedLater : String → Prop} (before : start.Since evicted middle)
    (after : middle.Since evictedLater last) :
    start.Since (fun text => evicted text ∨ evictedLater text) last where
  parser_eq := after.parser_eq.trans before.parser_eq
  locator_eq := after.locator_eq.trans before.locator_eq
  serial_le := Nat.le_trans before.serial_le after.serial_le
  old text shared isOld := by
    rw [after.old text shared (Nat.lt_of_lt_of_le isOld before.serial_le),
      before.old text shared isOld, not_or, and_assoc]

theorem congr {other : String → Prop} (since : start.Since evicted last)
    (same : ∀ text, evicted text ↔ other text) : start.Since other last :=
  ⟨since.parser_eq, since.locator_eq, since.serial_le,
    fun text shared isOld => by rw [since.old text shared isOld, same text]⟩

theorem get {files : FileSystem} {key : String}
    {result : BlueprintCache × Except CacheError SharedBlueprint}
    (gets : Gets start files key result) : start.Since (fun _ => False) result.1 := by
  cases gets with
  | cached found isThere => exact refl start
  | inline notFound isMarkup parsed => exact ⟨rfl, rfl, Nat.le_succ _, fun _ _ _ => by simp⟩
  | failed error => exact refl start
  | @read url source blueprint found absent isSource parsed =>
      refine ⟨rfl, rfl, Nat.le_succ _, fun text shared isOld => ?_⟩
      rw [Dict.get?_insert]
      split
      · next same =>
          rw [same, absent]
          -- The new reading has a number that no old one has.
          have isNew : (⟨start.nextSerial, blueprint⟩ : SharedBlueprint) ≠ shared := by
            rintro rfl
            exact Nat.lt_irrefl _ isOld
          simpa using isNew
      · simp

theorem attemptAll (start : BlueprintCache) (files : FileSystem) (keys : List String) :
    start.Since (fun _ => False) (start.attemptAll files keys).1 := by
  induction keys generalizing start with
  | nil => exact refl start
  | cons key rest inductionHypothesis =>
      exact ((get (gets_get start files key)).trans (inductionHypothesis _)).congr (by simp)

theorem remove (start : BlueprintCache) (files : FileSystem) (key : String) :
    start.Since (fun text => start.locator.urlText? files key = some text)
      (start.remove files key).1 := by
  rw [remove_eq]
  cases start.locator.urlText? files key with
  | none => exact (refl start).congr (by simp)
  | some evicted =>
      refine ⟨rfl, rfl, Nat.le_refl _, fun text shared _ => ?_⟩
      rw [Dict.get?_erase]
      by_cases same : text = evicted
      · simp [same]
      · simp [same, Ne.symm same]

/-- A change of the keys to read ahead leaves all entries. -/
theorem withPending (start : BlueprintCache) (pending : Option (List String)) :
    start.Since (fun _ => False) { start with pending } :=
  ⟨rfl, rfl, Nat.le_refl _, fun _ _ _ => by simp⟩

theorem perform (start : BlueprintCache) (step : CacheStep) :
    start.Since (step.Evicts start.locator) (start.perform step).1 := by
  obtain ⟨files, call⟩ := step
  cases call with
  | get key => exact get (gets_get start files key)
  | isCached key => exact refl start
  | remove key => exact remove start files key
  | clear =>
      exact ⟨rfl, rfl, Nat.le_refl _, fun _ _ _ => by
        simp [BlueprintCache.perform, clear, CacheStep.Evicts]⟩
  | addPrecompile key =>
      show start.Since (fun _ => False) (start.addPrecompile key).1
      unfold addPrecompile
      split
      · exact withPending start _
      · exact refl start
  | precompile =>
      show start.Since (fun _ => False) (start.precompile files).1
      rw [precompile_eq]
      exact ((withPending start none).trans (attemptAll _ files _)).congr (by simp)

theorem performAll (start : BlueprintCache) (steps : List CacheStep) :
    start.Since (fun text => ∃ step ∈ steps, step.Evicts start.locator text)
      (start.performAll steps).1 := by
  induction steps generalizing start with
  | nil => exact (refl start).congr (by simp)
  | cons step rest inductionHypothesis =>
      have first := perform start step
      refine (first.trans (inductionHypothesis _)).congr (fun text => ?_)
      rw [first.locator_eq]
      simp

end Since

end BlueprintCache

end LivePage
