import LivePage.Proofs.Blueprint.Following
import LivePage.Proofs.Blueprint.Reading
import Mathlib.Logic.Relation

/-!
Contract: how deep imports nest.

Owns:
- imports nested a number of times, with anything whatsoever below; the limit keeps
  every reading from coming that far;
- the depth at which handlers are called;
- chains of pages, which are read up to the limit and refused beyond it;
- pages that lead to a cycle of imports, which are refused.

Does not own: what grafted pages add to the page tree.
-/

namespace LivePage

namespace PageParser

open ParseStep

section Nesting

variable (parser : PageParser) (files : FileSystem)

/-- Carries out an import, with the imports of the imported page carried out by the
given function. At the limit, the page is not even looked at. -/
def importBy (inner : PageSource → ParseStep) (source : PageSource) : ParseStep := fun state =>
  if importLimit ≤ state.cursor.depth then (state, .error .importsTooDeep)
  else
    match source.document with
    | .error reason => (state, .error (.source reason))
    | .ok document =>
        ParseStep.movedBy (.toDocument source.url) (parser.parseDocument files inner document) state

/-- Imports inside imports, so many levels of them; below, anything may happen. -/
def nested (beyond : PageSource → ParseStep) : Nat → PageSource → ParseStep
  | 0 => beyond
  | levels + 1 => parser.importBy files (nested beyond levels)

/-- Reads a page, with its imports carried out by the given function. -/
def runBy (graft : PageSource → ParseStep) (source : PageSource) :
    ParseState × Except ParseError Unit :=
  match source.document with
  | .error reason => (start source.url, .error (.source reason))
  | .ok document => parser.parseDocument files graft document (start source.url)

theorem run_eq_runBy (source : PageSource) :
    parser.run files source = parser.runBy files (parser.graft files importLimit) source := rfl

variable {parser files}

/-- A graft with so many imports left does what imports do that are nested deeper
than that, at the depth that leaves so many. -/
theorem graft_follows_nested (beyond : PageSource → ParseStep) {remaining levels : Nat}
    (deeper : remaining < levels) (source : PageSource) :
    Follows (fun cursor => cursor.depth + remaining = importLimit) (fun _ => False)
      (parser.graft files remaining source) (parser.nested files beyond levels source) := by
  -- Depth and remaining imports add up to the limit; every import moves one over.
  induction remaining generalizing levels source with
  | zero =>
      obtain ⟨levels, rfl⟩ := Nat.exists_eq_succ_of_ne_zero (Nat.ne_of_gt deeper)
      refine ⟨parser.keeps_graft files 0 source, ?_⟩
      intro state atLimit
      have reached : importLimit ≤ state.cursor.depth := Nat.le_of_eq atLimit.symm
      refine Or.inl ?_
      rw [nested, importBy, if_pos reached]
      rfl
  | succ remaining inductionHypothesis =>
      obtain ⟨levels, rfl⟩ := Nat.exists_eq_succ_of_ne_zero (Nat.ne_zero_of_lt deeper)
      refine ⟨parser.keeps_graft files _ source, ?_⟩
      intro state below
      have notReached : ¬importLimit ≤ state.cursor.depth := by omega
      rw [nested, importBy, if_neg notReached, graft]
      cases source.document with
      | error reason => exact Or.inl rfl
      | ok document =>
          have inside : Follows (fun cursor => cursor.depth + remaining = importLimit)
              (fun _ => False)
              (parser.parseDocument files (parser.graft files remaining) document)
              (parser.parseDocument files (parser.nested files beyond levels) document) :=
            follows_parseDocument (fun _ atPlace => atPlace)
              (inductionHypothesis (Nat.lt_of_succ_lt_succ deeper)) document
          have moves : ∀ {cursor : Cursor}, cursor.depth + (remaining + 1) = importLimit →
              cursor.depth + 1 + remaining = importLimit := by
            omega
          exact (inside.movedBy moves).follows state below

/-- Reading a page never needs more than the limit of nested imports. -/
theorem runBy_nested (beyond : PageSource → ParseStep) {levels : Nat}
    (deeper : importLimit < levels) (source : PageSource) :
    parser.runBy files (parser.nested files beyond levels) source = parser.run files source := by
  rw [run_eq_runBy, runBy, runBy]
  cases source.document with
  | error reason => rfl
  | ok document =>
      have follows : Follows (fun cursor => cursor.depth + importLimit = importLimit)
          (fun _ => False) (parser.parseDocument files (parser.graft files importLimit) document)
          (parser.parseDocument files (parser.nested files beyond levels) document) :=
        follows_parseDocument (fun _ atPlace => atPlace) (graft_follows_nested beyond deeper)
          document
      rcases follows.follows (start source.url) (Nat.zero_add _) with same | ⟨_, _, impossible⟩
      · exact same.symm
      · exact impossible.elim

end Nesting

end PageParser

/-! ## Calls of handlers -/

/-- A step that, at the given places, keeps the cursor and calls handlers at depths
up to the limit only. -/
def ParseStep.CallsWithinLimit (place : Cursor → Prop) (step : ParseStep) : Prop :=
  ∀ state, place state.cursor →
    (step state).1.cursor = state.cursor ∧
      ∀ call ∈ (step state).1.calls, call ∈ state.calls ∨ call.cursor.depth ≤ importLimit

namespace ParseStep

variable {place : Cursor → Prop} {first second step : ParseStep}

theorem callsWithinLimit_of_builds (builds : step.Builds) : CallsWithinLimit place step := by
  intro state _
  refine ⟨builds.cursor_eq state, ?_⟩
  intro call member
  rw [builds.calls_eq] at member
  exact Or.inl member

theorem CallsWithinLimit.andThen (firstWithin : CallsWithinLimit place first)
    (secondWithin : CallsWithinLimit place second) :
    CallsWithinLimit place (first.andThen second) := by
  intro state atPlace
  obtain ⟨kept, calls⟩ := firstWithin state atPlace
  unfold ParseStep.andThen
  generalize first state = result at kept calls ⊢
  rcases result with ⟨next, _ | _⟩
  · exact ⟨kept, calls⟩
  · obtain ⟨keptNext, callsNext⟩ := secondWithin next (kept.symm ▸ atPlace)
    refine ⟨keptNext.trans kept, ?_⟩
    intro call member
    rcases callsNext call member with earlier | within
    · exact calls call earlier
    · exact Or.inr within

theorem CallsWithinLimit.movedBy {inner : Cursor → Prop} (within : CallsWithinLimit inner step)
    {detour : Detour} (moves : ∀ {cursor}, place cursor → inner (detour.go cursor)) :
    CallsWithinLimit place (ParseStep.movedBy detour step) := by
  intro state atPlace
  obtain ⟨kept, calls⟩ := within { state with cursor := detour.go state.cursor } (moves atPlace)
  exact ⟨(congrArg _ kept).trans (detour.back_go state.cursor), calls⟩

end ParseStep

namespace PageParser

open ParseStep

section Calls

variable {parser : PageParser} {files : FileSystem} {graft : PageSource → ParseStep}
  {place : Cursor → Prop}

theorem compatible_callsWithinLimit
    (stable : ∀ {cursor} number, place cursor → place { cursor with parent := number }) :
    parser.Compatible (fun step _ => CallsWithinLimit place step) where
  done := callsWithinLimit_of_builds builds_done
  fail error := callsWithinLimit_of_builds (builds_fail error)
  text run := callsWithinLimit_of_builds (parser.builds_processText run)
  andThen := CallsWithinLimit.andThen
  element definition arguments attributes content _ within := by
    intro state atPlace
    have opened := @callsWithinLimit_of_builds place _
      (parser.builds_openElement definition arguments attributes)
    have inside : CallsWithinLimit place
        (movedBy (.toElement state.tree.size) content) :=
      within.movedBy (fun atPlace => stable _ atPlace)
    have checked := @callsWithinLimit_of_builds place _
      (builds_check (fun tree => tree.validate state.tree.size))
    exact (opened.andThen (inside.andThen checked)) state atPlace

theorem callsWithinLimit_runHandling (within : ∀ source, CallsWithinLimit place (graft source))
    (handling : Handling) : CallsWithinLimit place (runHandling graft handling) := by
  intro state atPlace
  induction handling generalizing state with
  | done => exact ⟨rfl, fun _ => Or.inl⟩
  | fail error => exact ⟨rfl, fun _ => Or.inl⟩
  | look next inductionHypothesis => exact inductionHypothesis state.tree state atPlace
  | put tree next inductionHypothesis =>
      exact inductionHypothesis { state with tree := tree } atPlace
  | graft source next inductionHypothesis =>
      obtain ⟨kept, calls⟩ := within source state atPlace
      obtain ⟨keptNext, callsNext⟩ := inductionHypothesis (graft source state).2
        (graft source state).1 (kept.symm ▸ atPlace)
      refine ⟨keptNext.trans kept, ?_⟩
      intro call member
      rcases callsNext call member with earlier | within
      · exact calls call earlier
      · exact Or.inr within

theorem callsWithinLimit_processInstruction
    (shallow : ∀ cursor, place cursor → cursor.depth ≤ importLimit)
    (within : ∀ source, CallsWithinLimit place (graft source)) (target data : String) :
    CallsWithinLimit place (parser.processInstruction files graft target data) := by
  intro state atPlace
  unfold processInstruction
  split
  · exact ⟨rfl, fun _ => Or.inl⟩
  · next handler known =>
      obtain ⟨kept, calls⟩ := callsWithinLimit_runHandling within
        (handler ⟨files, parser.locator, state.cursor⟩ data)
        { state with calls := state.calls ++ [⟨target, data, state.cursor, state.tree.size⟩] }
        atPlace
      refine ⟨kept, ?_⟩
      intro call member
      rcases calls call member with earlier | within
      · rcases List.mem_append.mp earlier with before | isThis
        · exact Or.inl before
        · rw [List.mem_singleton.mp isThis]
          exact Or.inr (shallow _ atPlace)
      · exact Or.inr within

theorem callsWithinLimit_parseDocument {remaining : Nat}
    (within : ∀ source, CallsWithinLimit (fun cursor => cursor.depth + remaining ≤ importLimit)
      (graft source)) (document : Markup.Document) :
    CallsWithinLimit (fun cursor => cursor.depth + remaining ≤ importLimit)
      (parser.parseDocument files graft document) :=
  @parseDocument_related parser _ files files graft graft
    (compatible_callsWithinLimit (fun _ atPlace => atPlace)) document
    (fun instruction _ => callsWithinLimit_processInstruction
      (fun _ atPlace => Nat.le_of_add_right_le atPlace) within instruction.1 instruction.2)

theorem callsWithinLimit_graft (remaining : Nat) (source : PageSource) :
    CallsWithinLimit (fun cursor => cursor.depth + remaining ≤ importLimit)
      (parser.graft files remaining source) := by
  induction remaining generalizing source with
  | zero => exact callsWithinLimit_of_builds (builds_fail _)
  | succ remaining inductionHypothesis =>
      rw [graft]
      split
      · exact callsWithinLimit_of_builds (builds_fail _)
      · next document isDocument =>
          refine (callsWithinLimit_parseDocument inductionHypothesis document).movedBy ?_
          intro cursor below
          show cursor.depth + 1 + remaining ≤ importLimit
          omega

theorem depth_le_of_mem_calls (source : PageSource) {call : InstructionCall}
    (called : call ∈ (parser.run files source).1.calls) : call.cursor.depth ≤ importLimit := by
  unfold run at called
  split at called
  · cases called
  · next document isDocument =>
      have within : CallsWithinLimit (fun cursor => cursor.depth + importLimit ≤ importLimit)
          (parser.parseDocument files (parser.graft files importLimit) document) :=
        callsWithinLimit_parseDocument (callsWithinLimit_graft importLimit) document
      rcases (within (start source.url) (Nat.le_of_eq (Nat.zero_add _))).2 call called with
        earlier | isWithin
      · cases earlier
      · exact isWithin

end Calls

/-! ## Imports between pages -/

section Imports

variable (parser : PageParser) (files : FileSystem)

/-- Whether a page has an import that names another page, outside all dropped elements. -/
def Imports (page next : PageSource) : Prop :=
  ∃ document data, page.document = .ok document ∧
    (Instruction.importTarget, data) ∈ instructionsOfAll parser.enters document.nodes ∧
    Instruction.importedSource ⟨files, parser.locator, (start page.url).cursor⟩ data = .ok next

/-- Whether imports lead from a page through so many further ones. -/
inductive Leads : Nat → PageSource → Prop where
  | here {page : PageSource} : Leads 0 page
  | further {page next : PageSource} {steps : Nat} (imports : parser.Imports files page next)
      (leads : Leads steps next) : Leads (steps + 1) page

variable {parser files}

/-- The reading of a page fails if it has an import of a page that cannot be grafted. -/
theorem failsAt_of_imports (knows : parser.KnowsBuiltIns) {page next : PageSource}
    (imports : parser.Imports files page next) {remaining : Nat}
    (fails : FailsAt (fun _ => True) (parser.graft files remaining next))
    {document : Markup.Document} (isDocument : page.document = .ok document) :
    FailsAt (fun cursor => cursor.base = page.url)
      (parser.parseDocument files (parser.graft files remaining) document) := by
  obtain ⟨other, data, isOther, member, named⟩ := imports
  rw [isDocument] at isOther
  cases isOther
  refine failsAt_parseDocument (fun _ atPlace => atPlace)
    (keeps_processInstruction (parser.keeps_graft files _))
    ?_ member
  rw [processInstruction_import knows.imports]
  refine FailsAt.after ?_ (fun _ => rfl)
  intro state atPlace
  have named' : Instruction.importedSource ⟨files, parser.locator, state.cursor⟩ data = .ok next := by
    rw [← named]
    exact Instruction.importedSource_of_base atPlace data
  simp only [importStep, named']
  exact fails state trivial

/-- A page cannot be grafted if imports lead through more pages than may still nest. -/
theorem failsAt_graft (knows : parser.KnowsBuiltIns) {remaining : Nat} {page : PageSource}
    (leads : parser.Leads files remaining page) :
    FailsAt (fun _ => True) (parser.graft files remaining page) := by
  induction leads with
  | here => exact failsAt_fail _
  | further imports leads inductionHypothesis =>
      rw [graft]
      split
      · exact failsAt_fail _
      · next document isDocument =>
          -- Inside the grafted page its own location is the base, as the import needs.
          exact (failsAt_of_imports knows imports inductionHypothesis isDocument).movedBy
            (fun _ => rfl)

theorem runBy_fails (knows : parser.KnowsBuiltIns) {limit : Nat} {page : PageSource}
    (leads : parser.Leads files (limit + 1) page) :
    ∃ error, (parser.runBy files (parser.graft files limit) page).2 = .error error := by
  cases leads with
  | further imports leads =>
      unfold runBy
      split
      · exact ⟨_, rfl⟩
      · next document isDocument =>
          exact failsAt_of_imports knows imports (failsAt_graft knows leads) isDocument _ rfl

/-- Imports never come to an end behind a page that leads to a cycle. -/
theorem leads_of_cycle {page looped : PageSource}
    (reaches : Relation.ReflTransGen (parser.Imports files) page looped)
    (cycle : Relation.TransGen (parser.Imports files) looped looped) (steps : Nat) :
    parser.Leads files steps page := by
  induction steps generalizing page with
  | zero => exact .here
  | succ steps inductionHypothesis =>
      obtain ⟨next, imports, toLooped⟩ : ∃ next, parser.Imports files page next ∧
          Relation.ReflTransGen (parser.Imports files) next looped := by
        rcases Relation.ReflTransGen.cases_head reaches with rfl | further
        · -- The page is on the cycle itself, which goes on from it.
          exact Relation.TransGen.head'_iff.mp cycle
        · exact further
      exact .further imports (inductionHypothesis toLooped)

end Imports

/-! ## Chains of pages -/

section Chains

variable (parser : PageParser) (files : FileSystem)

/-- Pages of which each one up to the last imports the next one and no other page.
Their other instructions graft no pages. -/
structure Chain (pages : Nat → PageSource) (length : Nat) : Prop where
  imports : ∀ index < length, parser.Imports files (pages index) (pages (index + 1))
  nothingElse : ∀ index ≤ length, ∀ document, (pages index).document = .ok document →
    ∀ instruction ∈ instructionsOfAll parser.enters document.nodes,
      (index < length ∧ instruction.1 = Instruction.importTarget ∧
        Instruction.importedSource ⟨files, parser.locator, (start (pages index).url).cursor⟩
          instruction.2 = .ok (pages (index + 1))) ∨
      ∀ handler, parser.instructions.get? instruction.1 = some handler →
        InstructionHandler.GraftFree handler

/-- Whether a page is read when so many imports may nest. -/
def ReadsWithin (limit : Nat) (page : PageSource) : Prop :=
  (parser.runBy files (parser.graft files limit) page).2 = .ok ()

variable {parser files} {pages : Nat → PageSource} {length : Nat}

theorem Chain.leads (chain : parser.Chain files pages length) {index steps : Nat}
    (inside : index + steps ≤ length) : parser.Leads files steps (pages index) := by
  induction steps generalizing index with
  | zero => exact .here
  | succ steps inductionHypothesis =>
      exact .further (chain.imports index (by omega)) (inductionHypothesis (by omega))

/-- A page of a chain is read alike if the next page is grafted alike. -/
private theorem Chain.follows_of_next (chain : parser.Chain files pages length)
    (knows : parser.KnowsBuiltIns) {excused : ParseError → Prop} {remaining enough index : Nat}
    (inside : index ≤ length)
    (next : index < length → Follows (fun cursor => cursor.base = (pages index).url) excused
      (parser.graft files remaining (pages (index + 1)))
      (parser.graft files enough (pages (index + 1))))
    {document : Markup.Document} (isDocument : (pages index).document = .ok document) :
    Follows (fun cursor => cursor.base = (pages index).url) excused
      (parser.parseDocument files (parser.graft files remaining) document)
      (parser.parseDocument files (parser.graft files enough) document) := by
  have keeps := parser.keeps_graft files remaining
  refine parseDocument_related (compatible_follows (fun _ atPlace => atPlace)) ?_
  rintro ⟨target, data⟩ member
  rcases chain.nothingElse index inside document isDocument _ member with
    ⟨notLast, isImport, named⟩ | graftFree
  · -- The import of the next page is found from every place in this page.
    simp only at isImport named
    subst isImport
    have namedAt : ∀ cursor : Cursor, cursor.base = (pages index).url →
        Instruction.importedSource ⟨files, parser.locator, cursor⟩ data =
          .ok (pages (index + 1)) := by
      intro cursor atPage
      rw [← named]
      exact Instruction.importedSource_of_base atPage data
    rw [processInstruction_import knows.imports, processInstruction_import knows.imports]
    exact (follows_same (fun _ => rfl)).andThen (follows_importStep keeps namedAt (next notLast))
  · have same := @processInstruction_of_graftFree parser files (parser.graft files remaining)
      (parser.graft files enough) target graftFree data
    simp only
    rw [← same]
    exact follows_same (keeps_processInstruction keeps target data)

/-- A page of a chain is read alike with different numbers of imports left, the
second of which covers the rest of the chain, except that the first may be short. -/
theorem Chain.follows (chain : parser.Chain files pages length) (knows : parser.KnowsBuiltIns)
    {short : Prop} {remaining enough index : Nat} (inside : index ≤ length)
    (covers : length ≤ index + enough) (isShort : index + remaining < length → short)
    {document : Markup.Document} (isDocument : (pages index).document = .ok document) :
    Follows (fun cursor => cursor.base = (pages index).url)
      (fun error => error = .importsTooDeep ∧ short)
      (parser.parseDocument files (parser.graft files remaining) document)
      (parser.parseDocument files (parser.graft files enough) document) := by
  induction remaining generalizing enough index document with
  | zero =>
      refine chain.follows_of_next knows inside ?_ isDocument
      intro notLast
      exact ⟨parser.keeps_graft files 0 _,
        fun _ _ => Or.inr ⟨_, rfl, rfl, isShort notLast⟩⟩
  | succ remaining inductionHypothesis =>
      refine chain.follows_of_next knows inside ?_ isDocument
      intro notLast
      obtain ⟨enough, rfl⟩ : ∃ fewer, enough = fewer + 1 :=
        Nat.exists_eq_succ_of_ne_zero (by omega)
      rw [graft, graft]
      split
      · exact follows_same (fun _ => rfl)
      · next document isNext =>
          have nextFollows := @inductionHypothesis enough (index + 1) notLast (by omega)
            (fun fewer => isShort (by omega)) document isNext
          exact nextFollows.movedBy (fun _ => rfl)

/-- A chain that is read with some limit is read with another limit that covers it,
and ends in the error of imports that are nested too deep with every other one. -/
theorem Chain.runBy_snd (chain : parser.Chain files pages length) (knows : parser.KnowsBuiltIns)
    {limit : Nat} (reads : parser.ReadsWithin files limit (pages 0)) (remaining : Nat) :
    (parser.runBy files (parser.graft files remaining) (pages 0)).2 =
      if length ≤ remaining then .ok () else .error .importsTooDeep := by
  have failsIfShort : ∀ fewer, fewer < length →
      ∃ error, (parser.runBy files (parser.graft files fewer) (pages 0)).2 = .error error := by
    intro fewer isShort
    exact runBy_fails knows (chain.leads (by omega))
  -- A limit shorter than the chain cannot be the one the chain is read with.
  have covers : length ≤ limit := by
    apply Nat.le_of_not_lt
    intro isShort
    obtain ⟨error, failed⟩ := failsIfShort limit isShort
    rw [ReadsWithin, failed] at reads
    cases reads
  have outcome : (parser.runBy files (parser.graft files remaining) (pages 0)).2 = .ok () ∨
      (parser.runBy files (parser.graft files remaining) (pages 0)).2 = .error .importsTooDeep ∧
        remaining < length := by
    rw [ReadsWithin, runBy] at reads
    rw [runBy]
    split at reads
    · cases reads
    · next document isDocument =>
        have follows : Follows (fun cursor => cursor.base = (pages 0).url)
            (fun error => error = .importsTooDeep ∧ remaining < length)
            (parser.parseDocument files (parser.graft files remaining) document)
            (parser.parseDocument files (parser.graft files limit) document) :=
          chain.follows knows (Nat.zero_le _) (by omega) (by omega) isDocument
        rcases follows.follows (start (pages 0).url) rfl with same | ⟨_, failed, rfl, isShort⟩
        · rw [same]
          exact Or.inl reads
        · exact Or.inr ⟨failed, isShort⟩
  split
  · next covered =>
      rcases outcome with isRead | ⟨-, isShort⟩
      · exact isRead
      · omega
  · next notCovered =>
      rcases outcome with isRead | ⟨failed, -⟩
      · obtain ⟨error, failed⟩ := failsIfShort remaining (by omega)
        rw [isRead] at failed
        cases failed
      · exact failed

/-- A page that consists of one import is read like the imported page, one import deeper. -/
theorem runBy_of_import_alone (knows : parser.KnowsBuiltIns) {page imported : PageSource}
    {name : Markup.Name} {data : String} {included : Markup.Document}
    (isPage : page.document =
      .ok ⟨[.element name [] [.instruction Instruction.importTarget data]]⟩)
    (isRoot : parser.tagNamespaces.resolve name = .plain Definition.rootTag)
    (named : Instruction.importedSource ⟨files, parser.locator, (start page.url).cursor⟩ data =
      .ok imported)
    (isImported : imported.document = .ok included) (limit : Nat) :
    (parser.runBy files (parser.graft files (limit + 1)) page).2 =
      (parser.parseDocument files (parser.graft files limit) included
        { (note Instruction.importTarget data (start page.url)).1 with
          cursor := ⟨PageTree.root, imported.url, 1⟩ }).2 := by
  have reads : parser.parseDocument files (parser.graft files (limit + 1))
        ⟨[.element name [] [.instruction Instruction.importTarget data]]⟩ =
      (note Instruction.importTarget data).andThen
        (parser.importStep files (parser.graft files (limit + 1)) data) := by
    have nothing : parser.parseDocument files (parser.graft files (limit + 1)) ⟨[]⟩ = done := rfl
    rw [parseDocument_cons, parseTopLevel_root isRoot, parseNodes_node rfl, parseNodes_nil,
      processText_of_blank rfl, done_andThen, andThen_done, nothing, andThen_done, parseNode,
      processInstruction_import knows.imports]
  have grafted : parser.graft files (limit + 1) imported =
      movedBy (.toDocument imported.url)
        (parser.parseDocument files (parser.graft files limit) included) := by
    rw [graft, isImported]
  have step : ((note Instruction.importTarget data).andThen
      (parser.importStep files (parser.graft files (limit + 1)) data)) (start page.url) =
      parser.graft files (limit + 1) imported
        (note Instruction.importTarget data (start page.url)).1 := by
    have sameCursor : (note Instruction.importTarget data (start page.url)).1.cursor =
        (start page.url).cursor := rfl
    simp only [andThen, note, importStep] at sameCursor ⊢
    rw [named]
  rw [runBy, isPage]
  dsimp only
  rw [reads, step, grafted]
  rfl

theorem parse_error_iff {source : PageSource} {error : ParseError} :
    parser.parse files source = .error error ↔ (parser.run files source).2 = .error error := by
  unfold parse
  rcases parser.run files source with ⟨last, _ | _⟩ <;> simp

theorem exists_parse_iff {source : PageSource} :
    (∃ blueprint, parser.parse files source = .ok blueprint) ↔
      (parser.run files source).2 = .ok () := by
  unfold parse
  rcases parser.run files source with ⟨last, _ | _⟩ <;> simp

end Chains

/-- Imports are bounded. A reading never comes to imports that nest more than 16 deep,
whatever would happen there; handlers are called at depths up to 16; a chain of pages
that could be read otherwise is read if it has at most 16 imports, and refused as too
deep if it has more; and a page from which imports lead to a cycle of imports is refused. -/
theorem imports_are_bounded {parser : PageParser} (knows : parser.KnowsBuiltIns)
    (files : FileSystem) :
    (∀ beyond levels, 16 < levels → ∀ source,
      parser.runBy files (parser.nested files beyond levels) source = parser.run files source) ∧
    (∀ source, ∀ call ∈ (parser.run files source).1.calls, call.cursor.depth ≤ 16) ∧
    (∀ pages length, parser.Chain files pages length →
      (∃ limit, parser.ReadsWithin files limit (pages 0)) →
      ((∃ blueprint, parser.parse files (pages 0) = .ok blueprint) ↔ length ≤ 16) ∧
      (16 < length → parser.parse files (pages 0) = .error .importsTooDeep)) ∧
    ∀ page looped, Relation.ReflTransGen (parser.Imports files) page looped →
      Relation.TransGen (parser.Imports files) looped looped →
      ∃ error, parser.parse files page = .error error := by
  refine ⟨fun beyond _ deeper source => runBy_nested beyond deeper source,
    fun source _ called => depth_le_of_mem_calls source called, ?_, ?_⟩
  · rintro pages length chain ⟨limit, reads⟩
    have outcome := chain.runBy_snd knows reads importLimit
    rw [exists_parse_iff, parse_error_iff, run_eq_runBy, outcome]
    constructor
    · split
      · next short => exact iff_of_true rfl short
      · next tooLong => exact iff_of_false (fun impossible => nomatch impossible) tooLong
    · intro tooLong
      exact if_neg (Nat.not_le.mpr tooLong)
  · intro page looped reaches cycle
    obtain ⟨error, failed⟩ := runBy_fails knows (leads_of_cycle reaches cycle (importLimit + 1))
    exact ⟨error, parse_error_iff.mpr failed⟩

/-- A page that imports a page without imports is read, one that imports itself is not. -/
theorem part_is_read_and_loop_is_refused :
    let files := (FileSystem.empty.put ["part"] (.file (Text.encodeUtf8 "<fsp><span/></fsp>"))).put
      ["loop"] (.file (Text.encodeUtf8 "<fsp><?import src=\"loop\"?></fsp>"))
    let home : PageSource :=
      ⟨"<fsp><?import src=\"part\"?></fsp>", some (Url.ofFilePath ["home"])⟩
    let loop : PageSource :=
      ⟨"<fsp><?import src=\"loop\"?></fsp>", some (Url.ofFilePath ["loop"])⟩
    (∃ blueprint, (new .core).parse files home = .ok blueprint) ∧
      ∃ error, (new .core).parse files loop = .error error := by
  intro files home loop
  have knows := knowsBuiltIns_new .core
  have bounded := imports_are_bounded knows files
  let part : PageSource := ⟨"<fsp><span/></fsp>", some (Url.ofFilePath ["part"])⟩
  have isHome : (PageSource.mk "<fsp><?import src=\"part\"?></fsp>"
        (some (Url.ofFilePath ["home"]))).document =
      .ok ⟨[.element ⟨none, "fsp", .unbound⟩ [] [.instruction "import" "src=\"part\""]]⟩ := by
    rfl
  have isPart : (PageSource.mk "<fsp><span/></fsp>" (some (Url.ofFilePath ["part"]))).document =
      .ok ⟨[.element ⟨none, "fsp", .unbound⟩ [] [.element ⟨none, "span", .unbound⟩ [] []]]⟩ := by
    rfl
  have isLoop : (PageSource.mk "<fsp><?import src=\"loop\"?></fsp>"
        (some (Url.ofFilePath ["loop"]))).document =
      .ok ⟨[.element ⟨none, "fsp", .unbound⟩ [] [.instruction "import" "src=\"loop\""]]⟩ := by
    rfl
  have namesPart : Instruction.importedSource ⟨files, none, (start home.url).cursor⟩
      "src=\"part\"" = .ok part := by
    have read : Instruction.readData Instruction.importTarget "src=\"part\"" =
        .ok (Dict.ofList [("src", "part")]) :=
      eq_ok_of_toOption (by decide +kernel)
    have joined : (Url.ofFilePath ["home"]).join "part" = .ok (Url.ofFilePath ["part"]) :=
      eq_ok_of_toOption (by decide +kernel)
    have holds : files.HoldsAtTop "/part" "part" (Text.encodeUtf8 "<fsp><span/></fsp>") := by
      constructor <;> decide +kernel
    exact Instruction.importedSource_of_holdsAtTop read rfl rfl joined rfl (by decide +kernel) holds
      (by decide +kernel)
  have namesLoop : Instruction.importedSource ⟨files, none, (start loop.url).cursor⟩
      "src=\"loop\"" = .ok loop := by
    have read : Instruction.readData Instruction.importTarget "src=\"loop\"" =
        .ok (Dict.ofList [("src", "loop")]) :=
      eq_ok_of_toOption (by decide +kernel)
    have joined : (Url.ofFilePath ["loop"]).join "loop" = .ok (Url.ofFilePath ["loop"]) :=
      eq_ok_of_toOption (by decide +kernel)
    have holds : files.HoldsAtTop "/loop" "loop"
        (Text.encodeUtf8 "<fsp><?import src=\"loop\"?></fsp>") := by
      constructor <;> decide +kernel
    exact Instruction.importedSource_of_holdsAtTop read rfl rfl joined rfl (by decide +kernel) holds
      (by decide +kernel)
  constructor
  · let pages (index : Nat) : PageSource := if index = 0 then home else part
    have imports : (new .core).Imports files home part :=
      ⟨_, _, isHome, List.mem_singleton.mpr rfl, namesPart⟩
    have chain : (new .core).Chain files pages 1 := by
      constructor
      · intro index first
        rw [Nat.lt_one_iff.mp first]
        exact imports
      · intro index inside document isDocument instruction member
        obtain rfl | rfl : index = 0 ∨ index = 1 := by omega
        · have isHomeToo : document = ⟨[.element ⟨none, "fsp", .unbound⟩ []
              [.instruction "import" "src=\"part\""]]⟩ :=
            Except.ok.inj (isDocument.symm.trans isHome)
          subst isHomeToo
          have isImport : instruction = ("import", "src=\"part\"") := List.mem_singleton.mp member
          subst isImport
          exact Or.inl ⟨Nat.zero_lt_one, rfl, namesPart⟩
        · have isPartToo : document = ⟨[.element ⟨none, "fsp", .unbound⟩ []
              [.element ⟨none, "span", .unbound⟩ [] []]]⟩ :=
            Except.ok.inj (isDocument.symm.trans isPart)
          subst isPartToo
          cases member
    have reads : (new .core).ReadsWithin files 1 (pages 0) := by
      rw [ReadsWithin]
      refine (runBy_of_import_alone knows isHome rfl namesPart isPart 0).trans ?_
      exact eq_ok_of_toOption (by decide +kernel)
    exact ((bounded.2.2.1 pages 1 chain ⟨1, reads⟩).1).mpr (by decide)
  · have imports : (new .core).Imports files loop loop :=
      ⟨_, _, isLoop, List.mem_singleton.mpr rfl, namesLoop⟩
    exact bounded.2.2.2 loop loop .refl (.single imports)

end PageParser

end LivePage
