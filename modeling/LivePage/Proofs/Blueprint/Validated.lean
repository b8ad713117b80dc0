import LivePage.Proofs.Blueprint.Instruction
import LivePage.Proofs.Blueprint.Order
import LivePage.Proofs.Blueprint.Reading

/-!
Contract: pages that are read with the instructions known from the start are validated.

Owns:
- steps that, if they succeed, hand sound content to the enclosing element only;
- the steps of a reading, imports and tag libraries included, are of this kind;
- the page tree of a page is validated.

Does not own: when a page is read at all.
-/

namespace LivePage

open ParseStep PageTree

/-- Whether the elements among some content keep to their definitions, and a parent
of the given definition admits them. -/
def Contribution.AllSound (parent : Option Definition) (content : List Contribution) : Prop :=
  ∀ branch ∈ content.filterMap Branch.ofContribution?,
    branch.Sound ∧ ∃ definition, branch.label.definition = some definition ∧
      Definition.Admits parent definition

/-- A filled element is sound if what it was filled with is, in numbers that its
definition allows. -/
theorem Branch.sound_foldl_take {label : Label} {content : List Contribution}
    (allSound : Contribution.AllSound label.definition content)
    (countsFit : ∀ definition, label.definition = some definition →
      definition.CountsFit (Branch.childTags content)) :
    (content.foldl Branch.take (.node label [])).Sound := by
  have definition_eq := definition_foldl_take content (.node label [])
  have children_eq : (content.foldl Branch.take (.node label [])).children =
      content.filterMap ofContribution? :=
    children_foldl_take content (.node label [])
  cases filled : content.foldl Branch.take (.node label []) with
  | node filledLabel children =>
      rw [filled] at definition_eq children_eq
      simp only [Branch.label, Branch.children] at definition_eq children_eq
      subst children_eq
      constructor
      · intro child member
        rw [definition_eq]
        exact (allSound child member).2
      · rw [definition_eq]
        exact countsFit
      · exact fun child member => (allSound child member).1

namespace ParseStep

/-- A step that, if it succeeds, hands sound content to the enclosing element and
ends at the place where it began. -/
def Grows (step : ParseStep) : Prop :=
  ∀ state last, state.cursor.parent < state.tree.size → step state = (last, .ok ()) →
    last.cursor = state.cursor ∧
      ∃ content,
        Contribution.AllSound (state.tree.element state.cursor.parent).definition content ∧
        last.tree = content.foldl (contribute state.cursor.parent) state.tree

theorem grows_done : Grows done := by
  rintro state _ _ ⟨⟩
  exact ⟨rfl, [], by simp [Contribution.AllSound], rfl⟩

theorem grows_fail (error : ParseError) : Grows (fail error) := by
  rintro state _ _ ⟨⟩

theorem Grows.andThen {first second : ParseStep} (firstGrows : first.Grows)
    (secondGrows : second.Grows) : (first.andThen second).Grows := by
  intro state last inside taken
  obtain ⟨middle, takenFirst, takenSecond⟩ := andThen_eq_ok_iff.mp taken
  obtain ⟨cursor_eq, content, sound, tree_eq⟩ := firstGrows state middle inside takenFirst
  have grown : state.tree.size ≤ middle.tree.size := by
    rw [tree_eq]
    exact size_le_foldl_contribute inside content
  have insideMiddle : middle.cursor.parent < middle.tree.size := by
    rw [cursor_eq]
    exact Nat.lt_of_lt_of_le inside grown
  obtain ⟨lastCursor_eq, more, moreSound, lastTree_eq⟩ :=
    secondGrows middle last insideMiddle takenSecond
  refine ⟨lastCursor_eq.trans cursor_eq, content ++ more, ?_, ?_⟩
  · rw [cursor_eq, tree_eq, definition_foldl_contribute inside inside] at moreSound
    intro branch member
    rw [List.filterMap_append] at member
    rcases List.mem_append.mp member with inContent | inMore
    · exact sound branch inContent
    · exact moreSound branch inMore
  · rw [lastTree_eq, cursor_eq, tree_eq, List.foldl_append]

/-- Moving to another document keeps the enclosing element. -/
theorem Grows.movedBy {step : ParseStep} (grows : step.Grows) {detour : Detour}
    (sameParent : ∀ cursor, (detour.go cursor).parent = cursor.parent) :
    (ParseStep.movedBy detour step).Grows := by
  intro state last inside taken
  obtain ⟨inner, takenInside, rfl⟩ := movedBy_eq_ok_iff.mp taken
  have insideMoved : (detour.go state.cursor).parent < state.tree.size := by
    rw [sameParent]
    exact inside
  obtain ⟨cursor_eq, content, sound, tree_eq⟩ := grows _ inner insideMoved takenInside
  simp only [sameParent] at sound tree_eq
  refine ⟨?_, content, sound, tree_eq⟩
  dsimp only
  rw [cursor_eq]
  exact detour.back_go state.cursor

end ParseStep

namespace PageParser

variable {parser : PageParser}

theorem allSound_textContent {parent : Option Definition} {run : String}
    (fits : parser.TextFits parent run) :
    Contribution.AllSound parent (parser.textContent parent run) := by
  unfold textContent
  split
  · simp [Contribution.AllSound]
  · next notBlank =>
      obtain ⟨definition, rfl, takes⟩ := fits (by simpa using notBlank)
      rw [Option.map_some]
      cases content : definition.content with
      | reject => simp [Contribution.AllSound]
      | ignore => simp [Contribution.AllSound]
      | asAttribute => simp [Contribution.AllSound, Branch.ofContribution?]
      | asChild =>
          obtain ⟨text, registered, admitted, countsFit⟩ := takes.asElement content
          rw [registered]
          intro branch member
          simp only [List.filterMap_cons, Branch.ofContribution?, List.filterMap_nil,
            List.mem_singleton] at member
          subst member
          refine ⟨@Branch.sound_foldl_take _ [] ?_ ?_, text, rfl, admitted⟩
          · simp [Contribution.AllSound]
          · rintro _ ⟨⟩
            exact countsFit

theorem grows_processText (run : String) : (parser.processText run).Grows := by
  intro state last inside taken
  obtain ⟨fits, -, rfl⟩ := (yields_processText _ run state last inside rfl).mp taken
  exact ⟨rfl, _, allSound_textContent fits, rfl⟩

theorem grows_elementStep (definition : Definition) (arguments : List Json)
    (attributes : List Markup.Attribute) {content : ParseStep} (grows : content.Grows) :
    (parser.elementStep definition arguments attributes content).Grows := by
  intro state last inside taken
  obtain ⟨admitted, -, -, inner, takenInside, complete, rfl⟩ :=
    (elementStep_eq_ok_iff inside).mp taken
  let openedBranch := parser.opened definition arguments attributes
  have element_eq := element_addBranch_size inside openedBranch
  have insideOpened : state.tree.size <
      (state.tree.addBranch state.cursor.parent openedBranch).size := by
    rw [size_addBranch inside, Branch.size_eq]
    exact Nat.lt_add_of_pos_right (Nat.succ_pos _)
  -- The content was handed to the new element, which is the last one of its tree.
  obtain ⟨cursor_eq, pieces, sound, tree_eq⟩ := grows _ inner insideOpened takenInside
  simp only at sound tree_eq
  rw [element_eq] at sound
  rw [foldl_contribute_addBranch inside] at tree_eq
  have returned : { inner.cursor with parent := state.cursor.parent } = state.cursor := by
    rw [cursor_eq]
  refine ⟨returned, [.child (pieces.foldl Branch.take openedBranch)], ?_, tree_eq⟩
  intro branch member
  simp only [List.filterMap_cons, Branch.ofContribution?, List.filterMap_nil,
    List.mem_singleton] at member
  subst member
  have definition_eq := Branch.definition_foldl_take pieces openedBranch
  refine ⟨Branch.sound_foldl_take sound ?_, definition, definition_eq, admitted⟩
  rintro _ ⟨⟩
  -- The check after the content sees all children that the element will ever have.
  rw [tree_eq, validate_addBranch_eq_ok_iff inside] at complete
  have countsFit := complete definition definition_eq
  rwa [Branch.children_foldl_take] at countsFit

theorem compatible_grows : parser.Compatible (fun step _ => step.Grows) where
  done := grows_done
  fail := grows_fail
  text := grows_processText
  andThen := Grows.andThen
  element := fun definition arguments attributes _ _ grows =>
    grows_elementStep definition arguments attributes grows

/-! ## Instructions -/

theorem grows_note (target data : String) : (note target data).Grows := by
  rintro state _ _ ⟨⟩
  exact ⟨rfl, [], by simp [Contribution.AllSound], rfl⟩

theorem grows_libraryStep (data : String) : (libraryStep data).Grows := by
  intro state last _ taken
  unfold libraryStep at taken
  split at taken
  · next library declared =>
      cases taken
      exact ⟨rfl, [.library library], by simp [Contribution.AllSound, Branch.ofContribution?], rfl⟩
  · cases taken

section Grafts

variable {files : FileSystem} {graft : PageSource → ParseStep}

theorem grows_importStep (graftGrows : ∀ source, (graft source).Grows) (data : String) :
    (parser.importStep files graft data).Grows := by
  intro state last inside taken
  unfold importStep at taken
  split at taken
  · next source named => exact graftGrows source state last inside taken
  · cases taken

theorem grows_processInstruction (builtIn : parser.instructions = Instruction.builtIn)
    (graftGrows : ∀ source, (graft source).Grows) (target data : String) :
    (parser.processInstruction files graft target data).Grows := by
  cases known : parser.instructions.get? target with
  | none =>
      rw [processInstruction_of_unknown known]
      exact grows_fail _
  | some handler =>
      rcases Instruction.handler_of_builtIn (builtIn ▸ known) with rfl | rfl
      · rw [processInstruction_import known]
        exact (grows_note target data).andThen (grows_importStep graftGrows data)
      · rw [processInstruction_taglib known]
        exact (grows_note target data).andThen (grows_libraryStep data)

theorem grows_parseDocument (builtIn : parser.instructions = Instruction.builtIn)
    (graftGrows : ∀ source, (graft source).Grows) (document : Markup.Document) :
    (parser.parseDocument files graft document).Grows :=
  @parseDocument_related parser _ files files graft graft compatible_grows document
    (fun instruction _ =>
      grows_processInstruction builtIn graftGrows instruction.1 instruction.2)

theorem grows_graft (builtIn : parser.instructions = Instruction.builtIn) (remaining : Nat)
    (source : PageSource) : (parser.graft files remaining source).Grows := by
  induction remaining generalizing source with
  | zero => exact grows_fail _
  | succ remaining inductionHypothesis =>
      rw [graft]
      split
      · exact grows_fail _
      · next document isDocument =>
          exact (grows_parseDocument builtIn inductionHypothesis document).movedBy (fun _ => rfl)

end Grafts

/-- The page tree of a page that is read with the instructions known from the start
is validated. -/
theorem validated_of_parse {parser : PageParser} {files : FileSystem} {source : PageSource}
    {blueprint : Blueprint} (builtIn : parser.instructions = Instruction.builtIn)
    (parsed : parser.parse files source = .ok blueprint) : blueprint.tree.Validated := by
  obtain ⟨document, last, -, taken, rfl⟩ := parse_eq_ok_iff.mp parsed
  have grows : (parser.parseDocument files (parser.graft files importLimit) document).Grows :=
    grows_parseDocument builtIn (grows_graft builtIn importLimit) document
  obtain ⟨-, content, sound, tree_eq⟩ := grows (start source.url) last Nat.zero_lt_one taken
  have isBranch : last.tree = ofBranch (content.foldl Branch.take (.bare none)) :=
    tree_eq.trans (foldl_contribute_empty content)
  rw [isBranch]
  refine validated_ofBranch (Branch.sound_foldl_take sound ?_)
  rintro _ ⟨⟩

theorem validated_greeting :
    ∃ blueprint, (new .core).parse .empty (.ofText
        "<fsp><?taglib prefix=\"ui\" uri=\"https://ui\"?><div>hello<span/></div></fsp>") =
      .ok blueprint ∧ blueprint.tree.size = 4 ∧ blueprint.tree.Validated := by
  have isRead : (((new .core).parse .empty (.ofText
      "<fsp><?taglib prefix=\"ui\" uri=\"https://ui\"?><div>hello<span/></div></fsp>")).toOption.map
        (fun blueprint => blueprint.tree.size)) = some 4 := by
    decide +kernel
  obtain ⟨blueprint, isSome, size_eq⟩ := Option.map_eq_some_iff.mp isRead
  have parsed := eq_ok_of_toOption isSome
  exact ⟨blueprint, parsed, size_eq, validated_of_parse rfl parsed⟩

end PageParser

end LivePage
