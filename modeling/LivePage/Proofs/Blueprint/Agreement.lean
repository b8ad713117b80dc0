import LivePage.Proofs.Blueprint.Instruction
import LivePage.Proofs.Blueprint.Step

/-!
Contract: readings that cannot be told apart by the page tree and the outcome.

Owns:
- agreement of two steps on the page tree and the outcome, wherever their cursors match;
- every step of a reading agrees with itself, whatever calls were noted before;
- every step of a reading, instructions included, ends at the place where it began.

Does not own: different readings that agree.
-/

namespace LivePage

/-- A relation between cursors that knows the enclosing element and goes down with
it into a new one. -/
structure Cursor.Matching (near : Cursor → Cursor → Prop) : Prop where
  sameParent : ∀ {cursor other}, near cursor other → other.parent = cursor.parent
  within : ∀ {cursor other}, near cursor other → ∀ number,
    near { cursor with parent := number } { other with parent := number }

namespace Cursor

theorem matching_eq : Matching (fun cursor other => other = cursor) where
  sameParent same := by rw [same]
  within same _ := by rw [same]

theorem matching_eq_at (base : Option Url) :
    Matching (fun cursor other => other = cursor ∧ cursor.base = base) where
  sameParent same := by rw [same.1]
  within same _ := ⟨by rw [same.1], same.2⟩

theorem matching_parent : Matching (fun cursor other => other.parent = cursor.parent) where
  sameParent same := same
  within _ _ := rfl

end Cursor

namespace ParseStep

/-- Two steps that keep the cursor and that, from the same page tree and from
matching cursors, lead to the same page tree and the same outcome. -/
structure Agree (near : Cursor → Cursor → Prop) (first second : ParseStep) : Prop where
  firstKeeps : ∀ state, (first state).1.cursor = state.cursor
  secondKeeps : ∀ state, (second state).1.cursor = state.cursor
  same : ∀ {state other}, other.tree = state.tree → near state.cursor other.cursor →
    (second other).1.tree = (first state).1.tree ∧ (second other).2 = (first state).2

section Agreement

variable {near : Cursor → Cursor → Prop} {first second first' second' : ParseStep}

theorem Agree.mono {closer : Cursor → Cursor → Prop} (agree : Agree near first second)
    (implies : ∀ {cursor other}, closer cursor other → near cursor other) :
    Agree closer first second where
  firstKeeps := agree.firstKeeps
  secondKeeps := agree.secondKeeps
  same sameTree close := agree.same sameTree (implies close)

theorem agree_of_builds (matching : Cursor.Matching near) {step : ParseStep}
    (builds : step.Builds) : Agree near step step where
  firstKeeps := builds.cursor_eq
  secondKeeps := builds.cursor_eq
  same sameTree close := builds.agree _ _ sameTree (matching.sameParent close)

theorem Agree.andThen (firstAgree : Agree near first first')
    (secondAgree : Agree near second second') :
    Agree near (first.andThen second) (first'.andThen second') where
  firstKeeps := keeps_andThen firstAgree.firstKeeps secondAgree.firstKeeps
  secondKeeps := keeps_andThen firstAgree.secondKeeps secondAgree.secondKeeps
  same {state other} sameTree close := by
    obtain ⟨nextTree, nextOutcome⟩ := firstAgree.same sameTree close
    have kept := firstAgree.firstKeeps state
    have keptOther := firstAgree.secondKeeps other
    unfold ParseStep.andThen
    generalize first state = result at nextTree nextOutcome kept ⊢
    generalize first' other = otherResult at nextTree nextOutcome keptOther ⊢
    rcases result with ⟨next, _ | _⟩ <;> rcases otherResult with ⟨otherNext, _ | _⟩
    · exact ⟨nextTree, nextOutcome⟩
    · cases nextOutcome
    · cases nextOutcome
    · refine secondAgree.same nextTree ?_
      rw [kept, keptOther]
      exact close

/-- Steps taken at other places, which match if the places they start from do. -/
theorem Agree.movedBy {inner : Cursor → Cursor → Prop} {detour detour' : Detour}
    (agree : Agree inner first second)
    (moves : ∀ {cursor other}, near cursor other → inner (detour.go cursor) (detour'.go other)) :
    Agree near (ParseStep.movedBy detour first) (ParseStep.movedBy detour' second) where
  firstKeeps := keeps_movedBy detour agree.firstKeeps
  secondKeeps := keeps_movedBy detour' agree.secondKeeps
  same {state other} sameTree close := by
    have innerSame : (second { other with cursor := detour'.go other.cursor }).1.tree =
          (first { state with cursor := detour.go state.cursor }).1.tree ∧
        (second { other with cursor := detour'.go other.cursor }).2 =
          (first { state with cursor := detour.go state.cursor }).2 :=
      agree.same sameTree (moves close)
    exact innerSame

/-- Steps that are chosen by the page tree agree if every choice does. -/
theorem agree_choice {step step' : PageTree → ParseStep}
    (each : ∀ tree, Agree near (step tree) (step' tree)) :
    Agree near (fun state => step state.tree state) (fun state => step' state.tree state) where
  firstKeeps state := (each state.tree).firstKeeps state
  secondKeeps state := (each state.tree).secondKeeps state
  same sameTree close := by
    simp only [sameTree]
    exact (each _).same sameTree close

end Agreement

end ParseStep

namespace PageParser

open ParseStep

variable {parser : PageParser} {near : Cursor → Cursor → Prop}

theorem compatible_agree (matching : Cursor.Matching near) : parser.Compatible (Agree near) where
  done := agree_of_builds matching builds_done
  fail error := agree_of_builds matching (builds_fail error)
  text run := agree_of_builds matching (parser.builds_processText run)
  andThen := Agree.andThen
  element definition arguments attributes content content' agree := by
    have opened := agree_of_builds matching
      (parser.builds_openElement definition arguments attributes)
    have inside : ∀ number, Agree near
        (movedBy (.toElement number) content) (movedBy (.toElement number) content') :=
      fun number => agree.movedBy (fun close => matching.within close number)
    have checked := fun number =>
      agree_of_builds matching (builds_check (fun tree => tree.validate number))
    exact agree_choice (fun tree =>
      opened.andThen ((inside tree.size).andThen (checked tree.size)))

/-! ## Instructions -/

theorem agree_note (target data : String) : Agree near (note target data) (note target data) where
  firstKeeps _ := rfl
  secondKeeps _ := rfl
  same sameTree _ := ⟨sameTree, rfl⟩

theorem agree_libraryStep (matching : Cursor.Matching near) (data : String) :
    Agree near (libraryStep data) (libraryStep data) := by
  refine agree_of_builds matching ?_
  cases declared : Instruction.declaredLibrary data with
  | error error =>
      have isFail : libraryStep data = fail error := by
        funext state
        simp only [libraryStep, declared, fail]
      rw [isFail]
      exact builds_fail error
  | ok library =>
      have isEdit : libraryStep data = fun state =>
          edit (fun tree => .ok (tree.addTagLibrary state.cursor.parent library)) state := by
        funext state
        simp only [libraryStep, declared, edit]
      rw [isEdit]
      exact @builds_choice
        (fun parent _ => edit (fun tree => .ok (tree.addTagLibrary parent library)))
        (fun _ _ => builds_edit _)

section Grafts

variable {files : FileSystem} {graft graft' : PageSource → ParseStep}

theorem keeps_runHandling (keeps : ∀ source state, (graft source state).1.cursor = state.cursor)
    (handling : Handling) (state : ParseState) :
    (runHandling graft handling state).1.cursor = state.cursor := by
  induction handling generalizing state with
  | done => rfl
  | fail error => rfl
  | look next inductionHypothesis => exact inductionHypothesis state.tree state
  | put tree next inductionHypothesis => exact inductionHypothesis { state with tree := tree }
  | graft source next inductionHypothesis =>
      simp only [runHandling]
      rw [inductionHypothesis, keeps]

theorem keeps_processInstruction
    (keeps : ∀ source state, (graft source state).1.cursor = state.cursor)
    (target data : String) (state : ParseState) :
    (parser.processInstruction files graft target data state).1.cursor = state.cursor := by
  unfold processInstruction
  split
  · rfl
  · exact keeps_runHandling keeps _ _

theorem agree_runHandling (agree : ∀ source, Agree near (graft source) (graft' source))
    (handling : Handling) :
    Agree near (runHandling graft handling) (runHandling graft' handling) := by
  have firstKeeps := fun source => (agree source).firstKeeps
  have secondKeeps := fun source => (agree source).secondKeeps
  refine ⟨keeps_runHandling firstKeeps handling, keeps_runHandling secondKeeps handling, ?_⟩
  intro state other sameTree close
  induction handling generalizing state other with
  | done => exact ⟨sameTree, rfl⟩
  | fail error => exact ⟨sameTree, rfl⟩
  | look next inductionHypothesis =>
      simp only [runHandling, sameTree]
      exact inductionHypothesis _ sameTree close
  | put tree next inductionHypothesis => exact inductionHypothesis rfl close
  | graft source next inductionHypothesis =>
      obtain ⟨nextTree, nextOutcome⟩ := (agree source).same sameTree close
      simp only [runHandling]
      rw [nextOutcome]
      refine inductionHypothesis _ nextTree ?_
      rw [firstKeeps, secondKeeps]
      exact close

/-- A handler sees the same surroundings wherever the cursors are the same. -/
theorem agree_processInstruction (isSame : ∀ {cursor other}, near cursor other → other = cursor)
    (agree : ∀ source, Agree near (graft source) (graft' source)) (target data : String) :
    Agree near (parser.processInstruction files graft target data)
      (parser.processInstruction files graft' target data) := by
  cases known : parser.instructions.get? target with
  | none =>
      rw [processInstruction_of_unknown known, processInstruction_of_unknown known]
      exact ⟨fun _ => rfl, fun _ => rfl, fun sameTree _ => ⟨sameTree, rfl⟩⟩
  | some handler =>
      have handled := fun cursor : Cursor =>
        agree_runHandling agree (handler ⟨files, parser.locator, cursor⟩ data)
      refine ⟨keeps_processInstruction (fun source => (agree source).firstKeeps) target data,
        keeps_processInstruction (fun source => (agree source).secondKeeps) target data, ?_⟩
      intro state other sameTree close
      simp only [processInstruction, known, isSame close]
      refine (handled _).same sameTree ?_
      rw [← isSame close]
      simpa [isSame close] using close

end Grafts

/-- A graft does the same at the same place, whatever was noted before. -/
theorem agree_graft (files : FileSystem) (remaining : Nat) (source : PageSource) :
    Agree (fun cursor other => other = cursor) (parser.graft files remaining source)
      (parser.graft files remaining source) := by
  have compatible := @compatible_agree parser _ Cursor.matching_eq
  induction remaining generalizing source with
  | zero => exact compatible.fail _
  | succ remaining inductionHypothesis =>
      rw [graft]
      split
      · exact compatible.fail _
      · next document isDocument =>
          refine Agree.movedBy (parseDocument_related compatible ?_) (fun same => by rw [same])
          intro instruction _
          exact agree_processInstruction id inductionHypothesis _ _

/-! ## Returning -/

section Returning

variable (parser) (files : FileSystem) (remaining : Nat)

/-- Whatever comes of an import, what it puts back of the cursor is all that it has moved. -/
theorem keeps_graft (source : PageSource) (state : ParseState) :
    (parser.graft files remaining source state).1.cursor = state.cursor :=
  (parser.agree_graft files remaining source).firstKeeps state

theorem keeps_parseNodes (run : String) (nodes : List Markup.Node) (state : ParseState) :
    (parser.parseNodes files (parser.graft files remaining) run nodes state).1.cursor =
      state.cursor :=
  (parseNodes_related (compatible_agree Cursor.matching_eq)
    (fun _ _ => agree_processInstruction id (parser.agree_graft files remaining) _ _)
    run).firstKeeps state

theorem keeps_parseDocument (document : Markup.Document) (state : ParseState) :
    (parser.parseDocument files (parser.graft files remaining) document state).1.cursor =
      state.cursor :=
  (parseDocument_related (compatible_agree Cursor.matching_eq)
    (fun _ _ => agree_processInstruction id (parser.agree_graft files remaining) _ _)
    ).firstKeeps state

end Returning

end PageParser

end LivePage
