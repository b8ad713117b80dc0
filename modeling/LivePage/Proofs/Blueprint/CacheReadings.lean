import LivePage.Proofs.Blueprint.CacheCalls

/-!
Contract: a cache of blueprints is a map from URLs to readings.

Owns:
- every entry was read by an attempt, from the files that there were at that time;
- attempts give the same reading only if their keys lead to the same URL;
- pages queued for reading ahead are each tried once, in their order;
- what each call does to the entries, after whatever calls and changes of files.

Does not own: what becomes of entries that were removed.
-/

namespace LivePage

namespace Attempt

def urlText? (locator : Locator) (attempt : Attempt) : Option String :=
  locator.urlText? attempt.files attempt.key

/-- Whether an attempt read the entry of a URL: its key led there, and it gave what the file
there, with all that it imports, was at the time. -/
structure Reads (parser : PageParser) (locator : Locator) (text : String)
    (shared : SharedBlueprint) (attempt : Attempt) : Prop where
  gave : attempt.outcome = .ok shared
  read : ∃ url source, locator.normalize attempt.files attempt.key = .ok url ∧ url.text = text ∧
    PageSource.ofUrl attempt.files url = .ok source ∧
    parser.parse attempt.files source = .ok shared.blueprint

theorem Reads.urlText? {parser : PageParser} {locator : Locator} {text : String}
    {shared : SharedBlueprint} {attempt : Attempt}
    (reads : attempt.Reads parser locator text shared) : attempt.urlText? locator = some text := by
  obtain ⟨url, source, found, rfl, -⟩ := reads.read
  exact Locator.urlText?_of_ok found

/-- Whether two attempts give the same reading only at the same URL. -/
def SharesAtUrl (locator : Locator) (first second : Attempt) : Prop :=
  ∀ shared other, first.outcome = .ok shared → second.outcome = .ok other →
    shared.serial = other.serial →
      shared = other ∧
        ∃ text, first.urlText? locator = some text ∧ second.urlText? locator = some text

end Attempt

namespace BlueprintCache

-- Their laws say what these do; unfolded, they would be run.
seal get remove precompile

/-! ## Where entries come from -/

/-- What the entries of a cache and the attempts that led to it have to do with each other. -/
structure Traced (cache : BlueprintCache) (log : List Attempt) : Prop where
  made : ∀ text shared, cache.entries.get? text = some shared →
    ∃ earlier attempt later, log = earlier ++ attempt :: later ∧
      attempt.Reads cache.parser cache.locator text shared ∧
      ∀ other ∈ earlier, other.outcome ≠ .ok shared
  given : ∀ attempt ∈ log, ∀ shared, attempt.outcome = .ok shared →
    shared.serial < cache.nextSerial
  known : ∀ attempt ∈ log, ∀ shared, attempt.outcome = .ok shared →
    ∀ text other, cache.entries.get? text = some other → shared.serial = other.serial →
      shared = other ∧ attempt.urlText? cache.locator = some text
  sharing : log.Pairwise (Attempt.SharesAtUrl cache.locator)

namespace Traced

variable {cache next : BlueprintCache} {log : List Attempt}

theorem new (parser : PageParser) (locator : Locator) : Traced (new parser locator) [] where
  made := by simp [BlueprintCache.new]
  given := by simp
  known := by simp
  sharing := .nil

theorem exists_reads (traced : cache.Traced log) {text : String} {shared : SharedBlueprint}
    (isThere : cache.entries.get? text = some shared) :
    ∃ attempt ∈ log, attempt.Reads cache.parser cache.locator text shared := by
  obtain ⟨earlier, attempt, later, rfl, reads, -⟩ := traced.made text shared isThere
  exact ⟨attempt, by simp, reads⟩

theorem serial_lt (traced : cache.Traced log) {text : String} {shared : SharedBlueprint}
    (isThere : cache.entries.get? text = some shared) : shared.serial < cache.nextSerial := by
  obtain ⟨attempt, member, reads⟩ := traced.exists_reads isThere
  exact traced.given attempt member shared reads.gave

/-- Entries of different URLs are different readings. -/
theorem text_eq (traced : cache.Traced log) {text other : String}
    {shared sharedToo : SharedBlueprint} (isThere : cache.entries.get? text = some shared)
    (isThereToo : cache.entries.get? other = some sharedToo)
    (same : shared.serial = sharedToo.serial) : text = other := by
  obtain ⟨attempt, member, reads⟩ := traced.exists_reads isThere
  have known := (traced.known attempt member shared reads.gave other sharedToo isThereToo same).2
  exact Option.some.inj (reads.urlText?.symm.trans known)

/-- Entries may go. -/
theorem shrink (traced : cache.Traced log) (parser_eq : next.parser = cache.parser)
    (locator_eq : next.locator = cache.locator) (serial_eq : next.nextSerial = cache.nextSerial)
    (fewer : ∀ text shared, next.entries.get? text = some shared →
      cache.entries.get? text = some shared) : next.Traced log where
  made text shared isThere := by
    rw [parser_eq, locator_eq]
    exact traced.made text shared (fewer text shared isThere)
  given := by
    rw [serial_eq]
    exact traced.given
  known attempt member shared gave text other isThere := by
    rw [locator_eq]
    exact traced.known attempt member shared gave text other (fewer text other isThere)
  sharing := by
    rw [locator_eq]
    exact traced.sharing

/-- One more attempt: what it leaves was there or is what it read, and what it gave was there
or has a new number. -/
theorem concat (traced : cache.Traced log) {attempt : Attempt}
    (parser_eq : next.parser = cache.parser) (locator_eq : next.locator = cache.locator)
    (serial_le : cache.nextSerial ≤ next.nextSerial)
    (left : ∀ text shared, next.entries.get? text = some shared →
      cache.entries.get? text = some shared ∨
        cache.nextSerial ≤ shared.serial ∧ attempt.Reads cache.parser cache.locator text shared)
    (gave : ∀ shared, attempt.outcome = .ok shared → shared.serial < next.nextSerial ∧
      (cache.nextSerial ≤ shared.serial ∨
        ∃ text, cache.entries.get? text = some shared ∧
          attempt.urlText? cache.locator = some text)) :
    next.Traced (log ++ [attempt]) where
  made text shared isThere := by
    rw [parser_eq, locator_eq]
    rcases left text shared isThere with wasThere | ⟨isNew, reads⟩
    · obtain ⟨earlier, maker, later, rfl, reads, first⟩ := traced.made text shared wasThere
      exact ⟨earlier, maker, later ++ [attempt], by simp, reads, first⟩
    · refine ⟨log, attempt, [], rfl, reads, fun other member gaveBefore => ?_⟩
      have isOld := traced.given other member shared gaveBefore
      omega
  given other member shared isOk := by
    rcases List.mem_append.mp member with before | isLast
    · exact Nat.lt_of_lt_of_le (traced.given other before shared isOk) serial_le
    · obtain rfl := List.mem_singleton.mp isLast
      exact (gave shared isOk).1
  known other member shared isOk text entry isThere same := by
    rw [locator_eq]
    rcases List.mem_append.mp member with before | isLast
    · have isOld := traced.given other before shared isOk
      rcases left text entry isThere with wasThere | ⟨isNew, -⟩
      · exact traced.known other before shared isOk text entry wasThere same
      · omega
    · obtain rfl := List.mem_singleton.mp isLast
      rcases (gave shared isOk).2 with isNew | ⟨place, wasGiven, leads⟩
      · rcases left text entry isThere with wasThere | ⟨-, reads⟩
        · have isOld := traced.serial_lt wasThere
          omega
        · exact ⟨Except.ok.inj (isOk.symm.trans reads.gave), reads.urlText?⟩
      · have isOld := traced.serial_lt wasGiven
        rcases left text entry isThere with wasThere | ⟨isNew, -⟩
        · obtain rfl := traced.text_eq wasGiven wasThere same
          exact ⟨Option.some.inj (wasGiven.symm.trans wasThere), leads⟩
        · omega
  sharing := by
    rw [locator_eq]
    refine List.pairwise_append.mpr ⟨traced.sharing, List.pairwise_singleton _ _, ?_⟩
    intro other member last isLast shared sharedToo isOk isOkToo same
    obtain rfl := List.mem_singleton.mp isLast
    have isOld := traced.given other member shared isOk
    rcases (gave sharedToo isOkToo).2 with isNew | ⟨place, wasGiven, leads⟩
    · omega
    · obtain ⟨rfl, leadsToo⟩ := traced.known other member shared isOk place sharedToo wasGiven same
      exact ⟨rfl, place, leadsToo, leads⟩

theorem get (traced : cache.Traced log) {files : FileSystem} {key : String}
    {result : BlueprintCache × Except CacheError SharedBlueprint}
    (gets : Gets cache files key result) :
    result.1.Traced (log ++ [⟨files, key, result.2⟩]) := by
  cases gets with
  | @cached url shared found isThere =>
      refine traced.concat rfl rfl (Nat.le_refl _) (fun _ _ => .inl) ?_
      rintro _ ⟨⟩
      exact ⟨traced.serial_lt isThere, .inr ⟨url.text, isThere, Locator.urlText?_of_ok found⟩⟩
  | @read url source blueprint found absent isSource parsed =>
      refine traced.concat rfl rfl (Nat.le_succ _) (fun text shared isThere => ?_) ?_
      · rw [Dict.get?_insert] at isThere
        split at isThere
        · next same =>
            cases isThere
            exact .inr ⟨Nat.le_refl _, rfl, url, source, found, same.symm, isSource, parsed⟩
        · exact .inl isThere
      · rintro _ ⟨⟩
        exact ⟨Nat.lt_succ_self _, .inl (Nat.le_refl _)⟩
  | inline notFound isMarkup parsed =>
      refine traced.concat rfl rfl (Nat.le_succ _) (fun _ _ => .inl) ?_
      rintro _ ⟨⟩
      exact ⟨Nat.lt_succ_self _, .inl (Nat.le_refl _)⟩
  | failed error =>
      refine traced.concat rfl rfl (Nat.le_refl _) (fun _ _ => .inl) ?_
      rintro _ ⟨⟩

theorem attemptAll (traced : cache.Traced log) (files : FileSystem) (keys : List String) :
    (cache.attemptAll files keys).1.Traced (log ++ (cache.attemptAll files keys).2) := by
  induction keys generalizing cache log with
  | nil =>
      rw [BlueprintCache.attemptAll, List.append_nil]
      exact traced
  | cons key rest inductionHypothesis =>
      have others := inductionHypothesis (traced.get (gets_get cache files key))
      rw [List.append_assoc] at others
      exact others

theorem remove (traced : cache.Traced log) (files : FileSystem) (key : String) :
    (cache.remove files key).1.Traced log := by
  rw [remove_eq]
  split
  · next text _ =>
      refine traced.shrink rfl rfl rfl (fun other shared isThere => ?_)
      rw [Dict.get?_erase] at isThere
      split at isThere
      · cases isThere
      · exact isThere
  · exact traced

theorem perform (traced : cache.Traced log) (step : CacheStep) :
    (cache.perform step).1.Traced (log ++ (cache.perform step).2) := by
  obtain ⟨files, call⟩ := step
  cases call with
  | get key => exact traced.get (gets_get cache files key)
  | isCached key => exact (List.append_nil log).symm ▸ traced
  | remove key => exact (List.append_nil log).symm ▸ traced.remove files key
  | clear =>
      have cleared : cache.clear.Traced log :=
        traced.shrink rfl rfl rfl (fun _ _ isThere => nomatch isThere)
      exact (List.append_nil log).symm ▸ cleared
  | addPrecompile key =>
      have queued : (cache.addPrecompile key).1.Traced log := by
        unfold addPrecompile
        split
        · exact traced.shrink rfl rfl rfl (fun _ _ => id)
        · exact traced
      exact (List.append_nil log).symm ▸ queued
  | precompile =>
      have consumed : Traced { cache with pending := none } log :=
        traced.shrink rfl rfl rfl (fun _ _ => id)
      have ahead := consumed.attemptAll files cache.keysAhead
      show (cache.precompile files).1.Traced _
      rw [precompile_eq]
      exact ahead

theorem performAll (traced : cache.Traced log) (steps : List CacheStep) :
    (cache.performAll steps).1.Traced (log ++ (cache.performAll steps).2) := by
  induction steps generalizing cache log with
  | nil =>
      rw [BlueprintCache.performAll, List.append_nil]
      exact traced
  | cons step rest inductionHypothesis =>
      have others := inductionHypothesis (traced.perform step)
      rw [List.append_assoc] at others
      exact others

end Traced

/-! ## Reading ahead, once -/

section Pending

variable {cache : BlueprintCache} {files : FileSystem}

theorem Gets.pending_eq {key : String}
    {result : BlueprintCache × Except CacheError SharedBlueprint}
    (gets : Gets cache files key result) : result.1.pending = cache.pending := by
  cases gets <;> rfl

theorem pending_attemptAll (cache : BlueprintCache) (keys : List String) :
    (cache.attemptAll files keys).1.pending = cache.pending := by
  induction keys generalizing cache with
  | nil => rfl
  | cons key rest inductionHypothesis =>
      exact (inductionHypothesis _).trans (gets_get cache files key).pending_eq

theorem pending_precompile (cache : BlueprintCache) :
    (cache.precompile files).1.pending = none := by
  rw [precompile_eq]
  exact pending_attemptAll _ _

/-- Until pages are read ahead, keys are queued behind each other. -/
theorem pending_perform (cache : BlueprintCache) {step : CacheStep}
    (notAhead : step.call ≠ .precompile) :
    (cache.perform step).1.pending = cache.pending.map (· ++ step.queued?.toList) := by
  obtain ⟨files, call⟩ := step
  have unchanged : cache.pending.map (· ++ []) = cache.pending := by
    cases cache.pending <;> simp
  cases call with
  | get key => exact (gets_get cache files key).pending_eq.trans unchanged.symm
  | isCached key => exact unchanged.symm
  | remove key =>
      refine Eq.trans ?_ unchanged.symm
      show (cache.remove files key).1.pending = cache.pending
      rw [remove_eq]
      split <;> rfl
  | clear => exact unchanged.symm
  | addPrecompile key =>
      show (cache.addPrecompile key).1.pending = cache.pending.map (· ++ [key])
      unfold addPrecompile
      cases isPending : cache.pending with
      | none => exact isPending
      | some keys => rfl
  | precompile => exact absurd rfl notAhead

theorem pending_performAll (cache : BlueprintCache) {steps : List CacheStep}
    (noneAhead : ∀ step ∈ steps, step.call ≠ .precompile) :
    (cache.performAll steps).1.pending =
      cache.pending.map (· ++ steps.filterMap CacheStep.queued?) := by
  induction steps generalizing cache with
  | nil => cases isPending : cache.pending <;> simp [performAll, isPending]
  | cons step rest inductionHypothesis =>
      obtain ⟨ofFirst, ofRest⟩ := List.forall_mem_cons.mp noneAhead
      rw [performAll, inductionHypothesis _ ofRest, pending_perform cache ofFirst, Option.map_map]
      cases isQueued : step.queued? <;> simp [Function.comp_def, isQueued]

/-- Once pages were read ahead, nothing is queued any more. -/
theorem pending_performAll_of_none {steps : List CacheStep} (isPending : cache.pending = none) :
    (cache.performAll steps).1.pending = none := by
  induction steps generalizing cache with
  | nil => exact isPending
  | cons step rest inductionHypothesis =>
      refine inductionHypothesis ?_
      by_cases ahead : step.call = .precompile
      · obtain ⟨files, call⟩ := step
        obtain rfl : call = .precompile := ahead
        exact pending_precompile cache
      · rw [pending_perform cache ahead, isPending]
        rfl

theorem perform_precompile (cache : BlueprintCache) :
    cache.perform ⟨files, .precompile⟩ =
      { cache with pending := none }.attemptAll files cache.keysAhead := by
  show ((cache.precompile files).1, _) = _
  rw [precompile_eq]

theorem perform_precompile_of_none (isPending : cache.pending = none) :
    cache.perform ⟨files, .precompile⟩ = (cache, []) ∧ (cache.precompile files).2 = ⟨0, 0⟩ := by
  have nothing : cache.precompile files = (cache, ⟨0, 0⟩) := by
    rw [precompile, isPending]
  have noKeys : cache.keysAhead = [] := by
    rw [keysAhead, isPending]
    rfl
  refine ⟨?_, by rw [nothing]⟩
  show ((cache.precompile files).1, ({ cache with pending := none }.attemptAll files _).2) = _
  rw [nothing, noKeys]
  rfl

end Pending

/-! ## A map of readings -/

/-- What holds of a cache, given the attempts that led to it. -/
structure MapsReadings (cache : BlueprintCache) (log : List Attempt) : Prop where
  /-- An entry was read by the first attempt that gave it, from the files of that time. -/
  made : ∀ text shared, cache.entries.get? text = some shared →
    ∃ earlier attempt later, log = earlier ++ attempt :: later ∧
      attempt.Reads cache.parser cache.locator text shared ∧
      ∀ other ∈ earlier, other.outcome ≠ .ok shared
  /-- A key that is cached gives its entry, whatever the files hold by now. -/
  hit : ∀ files key, cache.isCached files key = true →
    ∃ text shared, cache.locator.urlText? files key = some text ∧
      cache.entries.get? text = some shared ∧ cache.get files key = (cache, .ok shared)
  /-- Keys that lead to the same URL have one entry. -/
  oneEntry : ∀ files key files' key' text shared,
    cache.locator.urlText? files key = some text →
    cache.locator.urlText? files' key' = some text → (cache.get files key).2 = .ok shared →
      let next := (cache.get files key).1
      next.get files' key' = (next, .ok shared) ∧ next.isCached files' key' = true ∧
        (next.remove files' key').2 = some shared
  failing : ∀ files key error, (cache.get files key).2 = .error error →
    (cache.get files key).1 = cache
  /-- A key that leads to no page is not cached, and is read anew as markup or gives an error. -/
  inline : ∀ files key, cache.locator.urlText? files key = none →
    (cache.get files key).1.entries = cache.entries ∧ cache.isCached files key = false ∧
      ∀ shared, (cache.get files key).2 = .ok shared →
        isInlineMarkup key = true ∧
        cache.parser.parse files (.ofText key) = .ok shared.blueprint ∧
        (∀ attempt ∈ log, ∀ other, attempt.outcome = .ok other → other.serial ≠ shared.serial) ∧
        ∀ text other, cache.entries.get? text = some other → other.serial ≠ shared.serial
  sharing : log.Pairwise (Attempt.SharesAtUrl cache.locator)
  /-- Entries go when they are removed or all are cleared, and only then. -/
  leaves : ∀ step text shared, cache.entries.get? text = some shared →
    ((cache.perform step).1.entries.get? text = some shared ↔
      ¬step.Evicts cache.locator text)

theorem Traced.mapsReadings {cache : BlueprintCache} {log : List Attempt}
    (traced : cache.Traced log) : cache.MapsReadings log where
  made := traced.made
  hit files key isCached := by
    rw [isCached_eq] at isCached
    split at isCached
    · next text leads =>
        obtain ⟨shared, isThere⟩ := Option.isSome_iff_exists.mp isCached
        exact ⟨text, shared, leads, isThere, get_of_entry leads isThere⟩
    · cases isCached
  oneEntry := by
    intro files key files' key' text shared leads leadsToo gave next
    have gets := gets_get cache files key
    have isThere : next.entries.get? text = some shared := gets.entry leads gave
    have leadsNow : next.locator.urlText? files' key' = some text := by
      rw [(Since.get gets).locator_eq]
      exact leadsToo
    refine ⟨get_of_entry leadsNow isThere, ?_, ?_⟩
    · rw [isCached_eq, leadsNow]
      exact Option.isSome_iff_exists.mpr ⟨shared, isThere⟩
    · rw [remove_eq, leadsNow]
      exact isThere
  failing files key error failed := (gets_get cache files key).eq_of_error failed
  inline files key nowhere := by
    obtain ⟨sameEntries, ofMarkup⟩ := (gets_get cache files key).of_nowhere nowhere
    refine ⟨sameEntries, by rw [isCached_eq, nowhere], fun shared gave => ?_⟩
    obtain ⟨isMarkup, isNew, parsed⟩ := ofMarkup shared gave
    refine ⟨isMarkup, parsed, fun attempt member other gaveOther => ?_,
      fun text other isThere => ?_⟩
    · exact isNew ▸ Nat.ne_of_lt (traced.given attempt member other gaveOther)
    · exact isNew ▸ Nat.ne_of_lt (traced.serial_lt isThere)
  sharing := traced.sharing
  leaves step text shared isThere := by
    rw [(Since.perform cache step).old text shared (traced.serial_lt isThere)]
    simp [isThere]

/-- After any calls to a new cache, with any changes of files between them, the cache maps URLs
to readings. The first time that pages are read ahead, the keys queued until then are each
tried once and in their order, whichever of them fail; later on nothing is read ahead. -/
theorem cache_maps_urls_to_readings (parser : PageParser) (locator : Locator)
    (steps : List CacheStep) :
    let run := (new parser locator).performAll steps
    run.1.parser = parser ∧ run.1.locator = locator ∧ run.1.MapsReadings run.2 ∧
    ∀ earlier files later, steps = earlier ++ ⟨files, .precompile⟩ :: later →
      (∀ step ∈ earlier, step.call ≠ .precompile) →
      let queue := earlier.filterMap CacheStep.queued?
      let before := ((new parser locator).performAll earlier).1
      let ahead := before.perform ⟨files, .precompile⟩
      ahead = { before with pending := none }.attemptAll files (queue.map withDefaultExtension) ∧
      ahead.2.map Attempt.key = queue.map withDefaultExtension ∧
      (before.precompile files).2 = tally ahead.2 ∧
      (tally ahead.2).compiled + (tally ahead.2).failed = queue.length ∧
      ∀ middle files' rest, later = middle ++ ⟨files', .precompile⟩ :: rest →
        let again := (ahead.1.performAll middle).1
        again.perform ⟨files', .precompile⟩ = (again, []) ∧
          (again.precompile files').2 = ⟨0, 0⟩ := by
  intro run
  have since := Since.performAll (new parser locator) steps
  have traced : run.1.Traced run.2 := (Traced.new parser locator).performAll steps
  refine ⟨since.parser_eq, since.locator_eq, traced.mapsReadings, ?_⟩
  intro earlier files later _ noneAhead queue before ahead
  have isPending : before.pending = some queue := pending_performAll (new parser locator) noneAhead
  have isAhead : ahead =
      { before with pending := none }.attemptAll files (queue.map withDefaultExtension) := by
    show before.perform _ = _
    rw [perform_precompile, keysAhead, isPending]
    rfl
  have keys : ahead.2.map Attempt.key = queue.map withDefaultExtension := by
    rw [isAhead, map_key_attemptAll]
  refine ⟨isAhead, keys, ?_, ?_, fun middle files' rest _ => ?_⟩
  · rw [precompile_eq]
    rfl
  · have sameLength := congrArg List.length keys
    rw [List.length_map, List.length_map] at sameLength
    exact (compiled_add_failed_tally ahead.2).trans sameLength
  · exact perform_precompile_of_none (pending_performAll_of_none (pending_precompile before))

end BlueprintCache

end LivePage
