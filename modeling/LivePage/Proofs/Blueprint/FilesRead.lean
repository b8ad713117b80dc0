import LivePage.Blueprint.Cache
import LivePage.Proofs.Blueprint.Following
import LivePage.Proofs.Location.Contents

/-!
Contract: which files a page is read from.

Owns:
- the files whose contents imports, pages and the cache read;
- handlers beside the one of imports, which read no files and pass failures on;
- an import that fails makes its page fail, however deep it is nested;
- nothing else is read: a file system with other contents elsewhere gives the same.

Does not own: where the files are.
-/

namespace LivePage

open ParseStep

/-! ## Imports -/

namespace Instruction

/-- The reference in the data of an import. -/
def importReference (data : String) : Except ParseError String := do
  let values ← readData importTarget data
  required importTarget "src" values

/-- The location that an import names. -/
def importedLocation (site : InstructionSite) (data : String) : Except ParseError Url := do
  let reference ← importReference data
  importedUrl site reference

theorem importedSource_eq (site : InstructionSite) (data : String) :
    importedSource site data =
      (importedLocation site data).bind (fun url =>
        (PageSource.ofUrl site.files url).mapError .source) := by
  simp only [importedSource, importedLocation, importReference, bind, Except.bind]
  cases readData importTarget data with
  | error error => rfl
  | ok values =>
      dsimp only
      cases required importTarget "src" values with
      | error error => rfl
      | ok reference =>
          dsimp only
          cases importedUrl site reference with
          | error error => rfl
          | ok url =>
              dsimp only
              cases PageSource.ofUrl site.files url <;> rfl

theorem importedLocation_same {free : Path → Prop} {files other : FileSystem}
    (same : files.SameBut free other) (locator : Option Locator) (cursor : Cursor)
    (data : String) :
    importedLocation ⟨other, locator, cursor⟩ data =
      importedLocation ⟨files, locator, cursor⟩ data := by
  have sameUrl : ∀ reference, importedUrl ⟨other, locator, cursor⟩ reference =
      importedUrl ⟨files, locator, cursor⟩ reference := by
    intro reference
    simp only [importedUrl, Locator.resolve_same same]
  simp only [importedLocation, sameUrl]

end Instruction

/-- The file whose content a call reads. Only imports read files. -/
def InstructionCall.fileRead? (files : FileSystem) (locator : Option Locator)
    (call : InstructionCall) : Option Path :=
  if call.target = Instruction.importTarget then
    match Instruction.importedLocation ⟨files, locator, call.cursor⟩ call.data with
    | .ok url => PageSource.fileAt? files url
    | .error _ => none
  else none

/-- A call of an import that names no page. -/
def InstructionCall.Refused (files : FileSystem) (locator : Option Locator)
    (call : InstructionCall) : Prop :=
  call.target = Instruction.importTarget ∧
    ∃ error, Instruction.importedSource ⟨files, locator, call.cursor⟩ call.data = .error error

/-- An import names the same page in another file system unless the page's file differs. -/
theorem importedSource_same {free : Path → Prop} {files other : FileSystem}
    (same : files.SameBut free other) {locator : Option Locator} {call : InstructionCall}
    (isImport : call.target = Instruction.importTarget)
    (notFree : ∀ path, call.fileRead? files locator = some path → ¬free path) :
    Instruction.importedSource ⟨other, locator, call.cursor⟩ call.data =
      Instruction.importedSource ⟨files, locator, call.cursor⟩ call.data := by
  rw [Instruction.importedSource_eq, Instruction.importedSource_eq,
    Instruction.importedLocation_same same]
  cases location : Instruction.importedLocation ⟨files, locator, call.cursor⟩ call.data with
  | error error => rfl
  | ok url =>
      have read : call.fileRead? files locator = PageSource.fileAt? files url := by
        rw [InstructionCall.fileRead?, if_pos isImport, location]
      rw [read] at notFree
      simp only [Except.bind, PageSource.ofUrl_same same notFree]

/-! ## Handlers -/

/-- A handler that looks at no files. -/
def InstructionHandler.IgnoresFiles (handler : InstructionHandler) : Prop :=
  ∀ files other locator cursor data,
    handler ⟨other, locator, cursor⟩ data = handler ⟨files, locator, cursor⟩ data

/-- What a handler does if it fails as soon as a page that it grafts fails. -/
inductive Handling.PassesFailures : Handling → Prop where
  | done : PassesFailures .done
  | fail (error : ParseError) : PassesFailures (.fail error)
  | look {next : PageTree → Handling} (passes : ∀ tree, (next tree).PassesFailures) :
      PassesFailures (.look next)
  | put {tree : PageTree} {next : Handling} (passes : next.PassesFailures) :
      PassesFailures (.put tree next)
  | graft {source : PageSource} {next : Except ParseError Unit → Handling}
      (rename : ParseError → ParseError)
      (fails : ∀ error, next (.error error) = .fail (rename error))
      (passes : (next (.ok ())).PassesFailures) : PassesFailures (.graft source next)

theorem Instruction.passesFailures_importHandler (site : InstructionSite) (data : String) :
    (importHandler site data).PassesFailures := by
  unfold importHandler
  cases importedSource site data with
  | error error => exact .fail error
  | ok source => exact .graft id (fun _ => rfl) .done

theorem Instruction.passesFailures_taglibHandler (site : InstructionSite) (data : String) :
    (taglibHandler site data).PassesFailures := by
  unfold taglibHandler
  cases declaredLibrary data with
  | error error => exact .fail error
  | ok library => exact .look (fun _ => .put .done)

/-- A parser whose handlers read files by imports only and pass failures on. -/
structure PageParser.ReadsByImport (parser : PageParser) : Prop where
  imports : parser.instructions.get? Instruction.importTarget = some Instruction.importHandler
  ignores : ∀ {target handler}, parser.instructions.get? target = some handler →
    target ≠ Instruction.importTarget → handler.IgnoresFiles
  passes : ∀ {target handler}, parser.instructions.get? target = some handler →
    ∀ site data, (handler site data).PassesFailures

theorem PageParser.readsByImport_of_builtIn {parser : PageParser}
    (builtIn : parser.instructions = Instruction.builtIn) : parser.ReadsByImport where
  imports := by
    rw [builtIn]
    rfl
  ignores := by
    intro target handler known notImport
    rcases Instruction.builtIn_cases (builtIn ▸ known) with ⟨isImport, -⟩ | ⟨-, rfl⟩
    · exact absurd isImport notImport
    · exact fun _ _ _ _ _ => rfl
  passes := by
    intro target handler known
    rcases Instruction.handler_of_builtIn (builtIn ▸ known) with rfl | rfl
    · exact Instruction.passesFailures_importHandler
    · exact Instruction.passesFailures_taglibHandler

/-! ## Steps and their calls -/

namespace ParseStep

/-- A step with another error in case of failure. -/
def failingAs (rename : ParseError → ParseError) (step : ParseStep) : ParseStep := fun state =>
  ((step state).1, (step state).2.mapError rename)

/-- A step that notes calls, fails after a refused one, and is what another step is unless it
calls where the two differ. -/
structure Traced (refused differs : InstructionCall → Prop) (step step' : ParseStep) : Prop where
  keeps : ∀ state, state.calls ⊆ (step state).1.calls
  fails : ∀ state, ∀ call ∈ (step state).1.calls,
    call ∈ state.calls ∨ (refused call → ∃ error, (step state).2 = .error error)
  same : ∀ state, (∀ call ∈ (step state).1.calls, ¬differs call) → step' state = step state

section Traced

variable {refused differs : InstructionCall → Prop}
  {first first' second second' step step' : ParseStep}

theorem traced_of_builds (builds : step.Builds) : Traced refused differs step step where
  keeps state := by
    rw [builds.calls_eq]
    exact List.Subset.refl _
  fails state call called := by
    rw [builds.calls_eq] at called
    exact .inl called
  same _ _ := rfl

theorem Traced.andThen (firstTraced : Traced refused differs first first')
    (secondTraced : Traced refused differs second second') :
    Traced refused differs (first.andThen second) (first'.andThen second') := by
  refine ⟨?_, ?_, ?_⟩ <;> intro state
  · have kept := firstTraced.keeps state
    unfold ParseStep.andThen
    generalize first state = result at kept ⊢
    rcases result with ⟨next, _ | _⟩
    · exact kept
    · exact List.Subset.trans kept (secondTraced.keeps next)
  · have failed := firstTraced.fails state
    unfold ParseStep.andThen
    generalize first state = result at failed ⊢
    rcases result with ⟨next, _ | _⟩
    · exact failed
    · intro call called
      rcases secondTraced.fails next call called with before | fails
      · rcases failed call before with earlier | impossible
        · exact .inl earlier
        · exact .inr (fun isRefused => nomatch impossible isRefused)
      · exact .inr fails
  · have same := firstTraced.same state
    unfold ParseStep.andThen
    generalize first state = result at same ⊢
    rcases result with ⟨next, _ | _⟩ <;> intro equal
    · rw [same equal]
    · rw [same (fun call called => equal call (secondTraced.keeps next called))]
      exact secondTraced.same next equal

theorem Traced.movedBy (traced : Traced refused differs step step') (detour : Detour) :
    Traced refused differs (ParseStep.movedBy detour step) (ParseStep.movedBy detour step') where
  keeps state := traced.keeps { state with cursor := detour.go state.cursor }
  fails state := traced.fails { state with cursor := detour.go state.cursor }
  same state equal := by
    have same := traced.same { state with cursor := detour.go state.cursor } equal
    unfold ParseStep.movedBy
    rw [same]

theorem Traced.failingAs (traced : Traced refused differs step step')
    (rename : ParseError → ParseError) :
    Traced refused differs (step.failingAs rename) (step'.failingAs rename) where
  keeps := traced.keeps
  fails state call called := by
    refine (traced.fails state call called).imp id (fun fails isRefused => ?_)
    obtain ⟨error, failed⟩ := fails isRefused
    exact ⟨rename error, by rw [ParseStep.failingAs, failed]; rfl⟩
  same state equal := by
    rw [ParseStep.failingAs, ParseStep.failingAs, traced.same state equal]

theorem traced_choice {step step' : PageTree → ParseStep}
    (each : ∀ tree, Traced refused differs (step tree) (step' tree)) :
    Traced refused differs (fun state => step state.tree state)
      (fun state => step' state.tree state) where
  keeps state := (each state.tree).keeps state
  fails state := (each state.tree).fails state
  same state := (each state.tree).same state

end Traced

end ParseStep

namespace PageParser

section Reading

variable {parser : PageParser} {files other : FileSystem}
  {graft graft' : PageSource → ParseStep}

theorem compatible_traced (refused differs : InstructionCall → Prop) :
    parser.Compatible (Traced refused differs) where
  done := traced_of_builds builds_done
  fail error := traced_of_builds (builds_fail error)
  text run := traced_of_builds (parser.builds_processText run)
  andThen := Traced.andThen
  element definition arguments attributes _ _ traced :=
    traced_choice (fun tree =>
      (traced_of_builds (parser.builds_openElement definition arguments attributes)).andThen
        ((traced.movedBy (.toElement tree.size)).andThen
          (traced_of_builds (builds_check (fun next => next.validate tree.size)))))

theorem traced_runHandling {refused differs : InstructionCall → Prop}
    (traced : ∀ source, Traced refused differs (graft source) (graft' source))
    {handling : Handling} (passes : handling.PassesFailures) :
    Traced refused differs (runHandling graft handling) (runHandling graft' handling) := by
  induction passes with
  | done => exact traced_of_builds builds_done
  | fail error => exact traced_of_builds (builds_fail error)
  | look passes inductionHypothesis => exact traced_choice inductionHypothesis
  | @put tree next passes inductionHypothesis =>
      exact ⟨fun state => inductionHypothesis.keeps { state with tree := tree },
        fun state => inductionHypothesis.fails { state with tree := tree },
        fun state => inductionHypothesis.same { state with tree := tree }⟩
  | @graft source next rename fails passes inductionHypothesis =>
      have composed : ∀ graft, runHandling graft (.graft source next) =
          ((graft source).failingAs rename).andThen (runHandling graft (next (.ok ()))) := by
        intro graft
        funext state
        simp only [runHandling, andThen, failingAs]
        rcases graft source state with ⟨grafted, error | _⟩
        · simp only [fails]
          rfl
        · rfl
      rw [composed, composed]
      exact ((traced source).failingAs rename).andThen inductionHypothesis

/-- A call whose file may differ in the other file system. -/
def Differs (parser : PageParser) (files : FileSystem) (free : Path → Prop)
    (call : InstructionCall) : Prop :=
  ∃ path, call.fileRead? files parser.locator = some path ∧ free path

variable {free : Path → Prop}

theorem ReadsByImport.handler_eq (reads : parser.ReadsByImport) {target : String}
    {handler : InstructionHandler} (known : parser.instructions.get? target = some handler)
    (isImport : target = Instruction.importTarget) : handler = Instruction.importHandler :=
  Option.some.inj (known.symm.trans (isImport ▸ reads.imports))

/-- The handler of a refused call fails. -/
theorem handler_of_refused (reads : parser.ReadsByImport) {call : InstructionCall}
    {handler : InstructionHandler} (known : parser.instructions.get? call.target = some handler)
    (refused : call.Refused files parser.locator) :
    ∃ error, handler ⟨files, parser.locator, call.cursor⟩ call.data = .fail error := by
  obtain ⟨isImport, error, refused⟩ := refused
  obtain rfl := reads.handler_eq known isImport
  refine ⟨error, ?_⟩
  rw [Instruction.importHandler, refused]
  rfl

/-- The handler of a call does the same in the other file system. -/
theorem handler_same (reads : parser.ReadsByImport) (same : files.SameBut free other)
    {call : InstructionCall} {handler : InstructionHandler}
    (known : parser.instructions.get? call.target = some handler)
    (equal : ¬parser.Differs files free call) :
    handler ⟨other, parser.locator, call.cursor⟩ call.data =
      handler ⟨files, parser.locator, call.cursor⟩ call.data := by
  by_cases isImport : call.target = Instruction.importTarget
  · obtain rfl := reads.handler_eq known isImport
    have sameSource := importedSource_same same isImport
      (fun path read isFree => equal ⟨path, read, isFree⟩)
    simp only [Instruction.importHandler, sameSource]
  · exact reads.ignores known isImport _ _ _ _ _

/-- What an instruction with a known handler does: its call is noted, then handled. -/
theorem processInstruction_of_known {target : String} {handler : InstructionHandler}
    (known : parser.instructions.get? target = some handler) (data : String) (state : ParseState) :
    let call : InstructionCall := ⟨target, data, state.cursor, state.tree.size⟩
    parser.processInstruction files graft target data state =
      runHandling graft (handler ⟨files, parser.locator, call.cursor⟩ call.data)
        { state with calls := state.calls ++ [call] } := by
  simp only [processInstruction, known]

theorem traced_processInstruction (reads : parser.ReadsByImport)
    (same : files.SameBut free other)
    (traced : ∀ source, Traced (InstructionCall.Refused files parser.locator)
      (parser.Differs files free) (graft source) (graft' source)) (target data : String) :
    Traced (InstructionCall.Refused files parser.locator) (parser.Differs files free)
      (parser.processInstruction files graft target data)
      (parser.processInstruction other graft' target data) := by
  cases known : parser.instructions.get? target with
  | none =>
      rw [processInstruction_of_unknown known, processInstruction_of_unknown known]
      exact traced_of_builds (builds_fail _)
  | some handler =>
      have handled : ∀ state : ParseState, Traced _ _
          (runHandling graft (handler ⟨files, parser.locator, state.cursor⟩ data))
          (runHandling graft' (handler ⟨files, parser.locator, state.cursor⟩ data)) :=
        fun state => traced_runHandling traced (reads.passes known _ _)
      refine ⟨?_, ?_, ?_⟩ <;> intro state <;> rw [processInstruction_of_known known]
      · intro call called
        exact (handled state).keeps _ (List.mem_append_left _ called)
      · intro call called
        rcases (handled state).fails _ call called with noted | fails
        · rcases List.mem_append.mp noted with earlier | isThis
          · exact .inl earlier
          · refine .inr (fun refused => ?_)
            obtain rfl := List.mem_singleton.mp isThis
            obtain ⟨error, failed⟩ := handler_of_refused reads known refused
            rw [failed]
            exact ⟨error, rfl⟩
        · exact .inr fails
      · rw [processInstruction_of_known known]
        intro equal
        have here := equal _ ((handled state).keeps _ (List.mem_append_right _ List.mem_cons_self))
        rw [handler_same reads same known here]
        exact (handled state).same _ equal

theorem traced_parseDocument (reads : parser.ReadsByImport) (same : files.SameBut free other)
    (traced : ∀ source, Traced (InstructionCall.Refused files parser.locator)
      (parser.Differs files free) (graft source) (graft' source)) (document : Markup.Document) :
    Traced (InstructionCall.Refused files parser.locator) (parser.Differs files free)
      (parser.parseDocument files graft document) (parser.parseDocument other graft' document) :=
  parseDocument_related (compatible_traced _ _) (fun instruction _ =>
    traced_processInstruction reads same traced instruction.1 instruction.2)

theorem traced_graft (reads : parser.ReadsByImport) (same : files.SameBut free other)
    (remaining : Nat) (source : PageSource) :
    Traced (InstructionCall.Refused files parser.locator) (parser.Differs files free)
      (parser.graft files remaining source) (parser.graft other remaining source) := by
  induction remaining generalizing source with
  | zero => exact traced_of_builds (builds_fail _)
  | succ remaining inductionHypothesis =>
      rw [graft, graft]
      cases source.document with
      | error reason => exact traced_of_builds (builds_fail _)
      | ok document =>
          exact (traced_parseDocument reads same inductionHypothesis document).movedBy _

/-! ## Pages -/

/-- The files whose contents imports read while a page is read, at any depth. -/
def filesImported (parser : PageParser) (files : FileSystem) (source : PageSource) : List Path :=
  (parser.run files source).1.calls.filterMap (InstructionCall.fileRead? files parser.locator)

/-- The files whose contents are read for the page at a URL. -/
def filesReadAt (parser : PageParser) (files : FileSystem) (url : Url) : List Path :=
  (PageSource.fileAt? files url).toList ++
    match PageSource.ofUrl files url with
    | .ok source => parser.filesImported files source
    | .error _ => []

/-- The files whose contents are read for the page that a key names. -/
def filesReadForKey (parser : PageParser) (files : FileSystem) (key : String) : List Path :=
  match parser.locator with
  | none => []
  | some locator =>
      match locator.normalize files key with
      | .ok url => parser.filesReadAt files url
      | .error _ => []

/-- A page fails if an import in it, at any depth, names no page. -/
theorem run_fails (reads : parser.ReadsByImport) {source : PageSource} {call : InstructionCall}
    (called : call ∈ (parser.run files source).1.calls)
    (refused : call.Refused files parser.locator) :
    ∃ error, (parser.run files source).2 = .error error := by
  have same : files.SameBut (fun _ => False) files := fun _ => .inl rfl
  unfold run at called ⊢
  split at called
  · cases called
  · next document isDocument =>
      have traced := traced_parseDocument reads same (traced_graft reads same importLimit) document
      rcases traced.fails (start source.url) call called with before | fails
      · cases before
      · exact fails refused

section Same

variable (reads : parser.ReadsByImport) (same : files.SameBut free other)

include reads same

/-- A page is read alike if the files that its imports read are the same. -/
theorem run_same {source : PageSource}
    (notFree : ∀ path ∈ parser.filesImported files source, ¬free path) :
    parser.run other source = parser.run files source := by
  have equal : ∀ call ∈ (parser.run files source).1.calls, ¬parser.Differs files free call := by
    rintro call called ⟨path, read, isFree⟩
    exact notFree path (List.mem_filterMap.mpr ⟨call, called, read⟩) isFree
  unfold run at equal ⊢
  cases isDocument : source.document with
  | error reason => rfl
  | ok document =>
      rw [isDocument] at equal
      have traced := traced_parseDocument reads same (traced_graft reads same importLimit) document
      exact traced.same (start source.url) equal

theorem parse_same {source : PageSource}
    (notFree : ∀ path ∈ parser.filesImported files source, ¬free path) :
    parser.parse other source = parser.parse files source := by
  rw [parse, parse, run_same reads same notFree]

/-- The page at a URL is the same if all files that are read for it are. -/
theorem parse_ofUrl_same {url : Url}
    (notFree : ∀ path ∈ parser.filesReadAt files url, ¬free path) :
    PageSource.ofUrl other url = PageSource.ofUrl files url ∧
      ∀ source, PageSource.ofUrl files url = .ok source →
        parser.parse other source = parser.parse files source := by
  have own : ∀ path, PageSource.fileAt? files url = some path → ¬free path :=
    fun path read => notFree path (List.mem_append_left _ (Option.mem_toList.mpr read))
  refine ⟨PageSource.ofUrl_same same own, fun source isSource => parse_same reads same ?_⟩
  intro path imported
  refine notFree path (List.mem_append_right _ ?_)
  rw [isSource]
  exact imported

theorem parseKey_same {key : String}
    (notFree : ∀ path ∈ parser.filesReadForKey files key, ¬free path) :
    parser.parseKey other key = parser.parseKey files key := by
  unfold filesReadForKey at notFree
  unfold parseKey sourceOfKey PageSource.ofKey
  cases isLocator : parser.locator with
  | none => rfl
  | some locator =>
      simp only [isLocator] at notFree
      simp only [Locator.normalize_same same]
      cases found : locator.normalize files key with
      | error reason => rfl
      | ok url =>
          simp only [found] at notFree
          obtain ⟨sameSource, sameParse⟩ := parse_ofUrl_same reads same notFree
          simp only [sameSource]
          cases isSource : PageSource.ofUrl files url with
          | error reason => rfl
          | ok source => exact sameParse source isSource

end Same

end Reading

end PageParser

/-! ## The cache -/

namespace BlueprintCache

variable {cache : BlueprintCache} {files other : FileSystem} {key : String}

/-- Whether the cache takes a key that is not found for markup. -/
def takesForMarkup (key : String) : SourceError → Bool
  | .notFound _ => isInlineMarkup key
  | .invalidLocation _ _ => isInlineMarkup key
  | _ => false

theorem isInlineMarkup_of_takesForMarkup {reason : SourceError}
    (taken : takesForMarkup key reason = true) : isInlineMarkup key = true := by
  unfold takesForMarkup at taken
  split at taken
  · exact taken
  · exact taken
  · cases taken

theorem get_of_error {reason : SourceError}
    (notFound : cache.locator.normalize files key = .error reason) :
    cache.get files key =
      if takesForMarkup key reason then cache.readInline files key
      else (cache, .error (.load key (.source reason))) := by
  rw [get, notFound]
  cases reason <;> rfl

/-- The files whose contents are read to get the page of a key. -/
def filesRead (cache : BlueprintCache) (files : FileSystem) (key : String) : List Path :=
  match cache.locator.normalize files key with
  | .ok url => if cache.entries.contains url.text then [] else cache.parser.filesReadAt files url
  | .error reason =>
      if takesForMarkup key reason then cache.parser.filesImported files (.ofText key) else []

/-- The page of a key is the same if all files that are read for it are. -/
theorem get_same {free : Path → Prop} (reads : cache.parser.ReadsByImport)
    (same : files.SameBut free other) (notFree : ∀ path ∈ cache.filesRead files key, ¬free path) :
    cache.get other key = cache.get files key := by
  unfold filesRead at notFree
  have sameUrl := Locator.normalize_same same cache.locator key
  cases found : cache.locator.normalize files key with
  | error reason =>
      rw [get_of_error found, get_of_error (sameUrl.trans found)]
      simp only [found] at notFree
      split
      · next markup =>
          rw [if_pos markup] at notFree
          rw [readInline, readInline, PageParser.parse_same reads same notFree]
      · rfl
  | ok url =>
      simp only [found] at notFree
      simp only [get, sameUrl, found, getAt]
      cases cached : cache.entries.get? url.text with
      | some shared => rfl
      | none =>
          have absent : ¬cache.entries.contains url.text = true := by
            simp [Dict.contains, cached]
          rw [if_neg absent] at notFree
          obtain ⟨sameSource, sameParse⟩ := PageParser.parse_ofUrl_same reads same notFree
          have samePage : cache.readPage other url = cache.readPage files url := by
            unfold readPage
            rw [sameSource]
            cases isSource : PageSource.ofUrl files url with
            | error reason => rfl
            | ok source => exact sameParse source isSource
          simp only [samePage]

end BlueprintCache

end LivePage
