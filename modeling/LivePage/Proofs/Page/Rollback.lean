import LivePage.Proofs.Blueprint.Step
import LivePage.Proofs.Page.Growth

/-!
Contract: what a failed making leaves behind.

Owns:
- discarding new components takes everything new back;
- after a failure, only settings of the page's own component may be left.

Does not own: when making fails.
-/

namespace LivePage.PageState

namespace Grown

variable {tree : PageTree} {origin page : PageState} {parent : String}

/-! ## Taking new components back -/

/-- What was there before is not below a new component. -/
theorem not_below (originIntact : origin.Intact) (grown : Grown tree origin parent page)
    {top id : String} {original : Component} (topIsNew : origin.component? top = none)
    (found : origin.component? id = some original) : ¬page.Below top id := by
  intro isBelow
  induction isBelow using Relation.ReflTransGen.head_induction_on generalizing original with
  | refl =>
      rw [found] at topIsNew
      cases topIsNew
  | @head id above hangs _ inductionHypothesis =>
      have notPage := grown.intact.ne_page_of_hangsIn hangs
      rw [grown.id_eq] at notPage
      obtain ⟨component, foundNow, hasParent⟩ := hangs
      obtain ⟨before, foundBefore, kept⟩ := grown.kept id original found
      rw [foundNow] at foundBefore
      cases foundBefore
      have sameParent : component.parent = original.parent := by
        rw [← kept.other (fun isPage => absurd isPage notPage)]
      obtain ⟨place, old, isPlace, foundOld, -⟩ := originIntact.hangs found notPage
      rw [hasParent, isPlace] at sameParent
      cases sameParent
      exact inductionHypothesis foundOld

theorem discard (originIntact : origin.Intact) (grown : Grown tree origin parent page)
    {top : String} (topIsNew : origin.component? top = none) :
    Grown tree origin parent (page.discard top).1 := by
  cases foundTop : page.component? top with
  | none =>
      rw [discard_of_absent foundTop]
      exact grown
  | some component =>
      have notPage := grown.ne_page_of_new originIntact topIsNew
      have left := @found_of_discard page top component grown.intact notPage foundTop
      refine ⟨grown.intact.discard top, (id_discard page top).trans grown.id_eq,
        (nextComponent_discard page top) ▸ grown.counter_le, ?_, ?_⟩
      · intro id original found
        obtain ⟨before, foundBefore, kept⟩ := grown.kept id original found
        have notBelow := grown.not_below originIntact topIsNew found
        refine ⟨before.removeChild top, ?_, ?_⟩
        · rw [component?_discard_of_not_below grown.intact notPage foundTop notBelow, foundBefore]
          rfl
        · obtain ⟨added, children_eq, areNew, onlyParent⟩ := kept.children
          have notListed : ∀ child ∈ original.children, child ≠ top := by
            intro child member isTop
            obtain ⟨below, foundBelow, -⟩ := originIntact.listed found member
            rw [isTop, topIsNew] at foundBelow
            cases foundBelow
          refine ⟨⟨added.filter (· ≠ top), ?_, ?_, ?_⟩, kept.other, ?_⟩
          · have keptChildren : original.children.filter (· ≠ top) = original.children := by
              simpa using notListed
            rw [Component.removeChild, children_eq, List.filter_append, keptChildren]
          · intro child member
            exact areNew child (List.mem_filter.mp member).1
          · intro notParent
            rw [onlyParent notParent]
            rfl
          · intro isOwn
            obtain ⟨same, setUp⟩ := kept.own isOwn
            exact ⟨same.trans ⟨rfl, rfl, rfl, rfl⟩, setUp.withChildren _⟩
      · intro id isLeft found absent
        obtain ⟨-, original, foundOriginal, rfl⟩ := left found
        exact grown.added id original foundOriginal absent

/-- Where the parent has no new child, there are no new components at all. -/
theorem found_of_found (originIntact : origin.Intact) (grown : Grown tree origin parent page)
    (noneAdded : ∀ child ∈ page.children parent, origin.component? child ≠ none) {id : String}
    {component : Component} (found : page.component? id = some component) :
    origin.component? id ≠ none := by
  intro absent
  -- On the way up from a new component, the last new one hangs in the parent.
  have way := grown.intact.reaches found
  induction way using Relation.ReflTransGen.head_induction_on generalizing component with
  | refl => exact grown.ne_page_of_new originIntact absent rfl
  | @head id place hangs _ inductionHypothesis =>
      obtain ⟨above, foundAbove, listed⟩ := grown.intact.above_of_hangsIn hangs
      obtain ⟨other, foundOther, hasParent⟩ := hangs
      obtain ⟨-, otherPlace, isOpen, choice⟩ := grown.added id other foundOther absent
      rw [hasParent] at isOpen
      cases isOpen
      rcases choice with isParent | placeIsNew
      · have listedInParent : id ∈ page.children parent := by
          simpa only [← isParent, children, foundAbove] using listed
        exact noneAdded id listedInParent absent
      · exact inductionHypothesis foundAbove placeIsNew

/-- Discarding all new children of the parent takes everything new back. -/
theorem discardAll (originIntact : origin.Intact) (grown : Grown tree origin parent page)
    {pending : List String} (areNew : ∀ child ∈ pending, origin.component? child = none)
    (areAll : ∀ child ∈ page.children parent, origin.component? child = none → child ∈ pending) :
    Grown tree origin parent (pending.foldl (fun page child => (page.discard child).1) page) ∧
      ∀ child ∈ (pending.foldl (fun page child => (page.discard child).1) page).children parent,
        origin.component? child ≠ none := by
  induction pending generalizing page with
  | nil => exact ⟨grown, fun child member absent => absurd (areAll child member absent) List.not_mem_nil⟩
  | cons top rest inductionHypothesis =>
      have topIsNew := areNew top List.mem_cons_self
      refine inductionHypothesis (grown.discard originIntact topIsNew)
        (fun child member => areNew child (List.mem_cons_of_mem _ member)) ?_
      intro child member absent
      have notPage := grown.ne_page_of_new originIntact topIsNew
      obtain ⟨listed, notTop⟩ := mem_children_of_discard grown.intact notPage member
      exact List.mem_of_ne_of_mem notTop (areAll child listed absent)

/-- The children that a failure leaves to be discarded are the new ones. -/
theorem discardOthers (originIntact : origin.Intact) (grown : Grown tree origin parent page) :
    Grown tree origin parent (page.discardOthers parent (origin.children parent)) ∧
      ∀ child ∈ (page.discardOthers parent (origin.children parent)).children parent,
        origin.component? child ≠ none := by
  have old_of_listed : ∀ child ∈ origin.children parent, origin.component? child ≠ none := by
    intro child member absent
    unfold children at member
    split at member
    · next above foundAbove =>
        obtain ⟨below, foundBelow, -⟩ := originIntact.listed foundAbove member
        rw [absent] at foundBelow
        cases foundBelow
    · cases member
  have listed_or_new : ∀ child ∈ page.children parent,
      child ∈ origin.children parent ∨ origin.component? child = none := by
    intro child member
    cases foundParent : origin.component? parent with
    | none =>
        unfold children at member
        split at member
        · next component foundNow =>
            obtain ⟨above, foundAbove⟩ := (grown.added parent component foundNow foundParent).1
            rw [foundParent] at foundAbove
            cases foundAbove
        · cases member
    | some original =>
        obtain ⟨component, foundNow, kept⟩ := grown.kept parent original foundParent
        obtain ⟨added, children_eq, areNew, -⟩ := kept.children
        simp only [children, foundNow, children_eq] at member
        simp only [children, foundParent]
        rcases List.mem_append.mp member with isOld | isAdded
        · exact Or.inl isOld
        · exact Or.inr (areNew child isAdded)
  refine grown.discardAll originIntact ?_ ?_
  · intro child member
    obtain ⟨listed, notKept⟩ := List.mem_filter.mp member
    exact (listed_or_new child listed).resolve_left (by simpa using notKept)
  · intro child listed absent
    refine List.mem_filter.mpr ⟨listed, ?_⟩
    have notKept : child ∉ origin.children parent := fun isOld => old_of_listed child isOld absent
    simpa using notKept

end Grown

/-! ## After a failure -/

/-- A page is as it was before, but for settings of its own component that come from
top-level `page` elements, and numbers drawn in vain. -/
structure Restored (tree : PageTree) (before after : PageState) : Prop where
  sameIds : ∀ id, (after.component? id).isSome = (before.component? id).isSome
  sameChildren : ∀ id, after.children id = before.children id
  sameComponents : ∀ id, id ≠ before.id → after.component? id = before.component? id
  own : ∀ original, before.component? before.id = some original →
    ∃ component, after.component? before.id = some component ∧
      original.SameFrame component ∧ tree.SetUpBy original component
  counter_le : before.nextComponent ≤ after.nextComponent

/-- What has grown and has no new child below the parent any more is restored. -/
theorem Grown.restored {tree : PageTree} {origin page : PageState} {parent : String}
    (originIntact : origin.Intact) (grown : Grown tree origin parent page)
    (noneAdded : ∀ child ∈ page.children parent, origin.component? child ≠ none) :
    Restored tree origin page := by
  have absent_of_absent : ∀ {id}, origin.component? id = none → page.component? id = none := by
    intro id absent
    cases found : page.component? id with
    | none => rfl
    | some component => exact absurd absent (grown.found_of_found originIntact noneAdded found)
  have children_of_found : ∀ {id original component}, origin.component? id = some original →
      page.component? id = some component → Kept tree origin parent id original component →
      component.children = original.children := by
    intro id original component found foundNow kept
    obtain ⟨added, children_eq, areNew, onlyParent⟩ := kept.children
    have isEmpty : added = [] := by
      by_cases isParent : id = parent
      · apply List.eq_nil_iff_forall_not_mem.mpr
        intro child member
        have listed : child ∈ page.children parent := by
          simp only [children, ← isParent, foundNow, children_eq]
          exact List.mem_append_right _ member
        exact noneAdded child listed (areNew child member)
      · exact onlyParent isParent
    rw [children_eq, isEmpty, List.append_nil]
  refine ⟨?_, ?_, ?_, ?_, grown.counter_le⟩
  · intro id
    cases found : origin.component? id with
    | none => rw [absent_of_absent found]
    | some original =>
        obtain ⟨component, foundNow, -⟩ := grown.kept id original found
        rw [foundNow]
        rfl
  · intro id
    cases found : origin.component? id with
    | none => simp only [children, found, absent_of_absent found]
    | some original =>
        obtain ⟨component, foundNow, kept⟩ := grown.kept id original found
        simp only [children, found, foundNow]
        exact children_of_found found foundNow kept
  · intro id notPage
    cases found : origin.component? id with
    | none => exact absent_of_absent found
    | some original =>
        obtain ⟨component, foundNow, kept⟩ := grown.kept id original found
        have same := kept.other (fun isPage => absurd isPage notPage)
        rw [← children_of_found found foundNow kept] at same
        rw [foundNow, ← same]
  · intro original found
    obtain ⟨component, foundNow, kept⟩ := grown.kept origin.id original found
    obtain ⟨same, setUp⟩ := kept.own rfl
    have sameId : component.id = original.id :=
      (grown.intact.named foundNow).trans (originIntact.named found).symm
    exact ⟨component, foundNow, ⟨sameId, same.tag, same.widgetClass, same.parent,
      children_of_found found foundNow kept, same.arguments⟩, setUp⟩

/-- A making that fails leaves a page as it was before, but for what attributes of top-level
`page` elements have set at the page's own component. -/
theorem restored_of_materialize_error {page : PageState} (arises : page.Arises) {tree : PageTree}
    {parent : Option String} {building : Building} {error : MaterializeError}
    (failed : page.materialize tree parent = (building, .error error)) :
    Restored tree page building.page := by
  rcases arises.sound with intact | gone
  · obtain ⟨made, edits, outcome⟩ := edits_materialize page tree parent
    rcases outcome with ⟨ids, succeeded⟩ | ⟨other, isFailed⟩
    · rw [failed] at succeeded
      cases succeeded
    · rw [failed] at isFailed
      cases isFailed
      have start : Grown tree page (parent.getD page.id) page := .refl intact
      have grown := Grown.edits intact start edits
      obtain ⟨left, noneAdded⟩ := grown.discardOthers intact
      exact left.restored intact noneAdded
  · have continues := Continues.perform (Or.inr gone) (.materialize tree parent)
    simp only [perform, failed] at continues
    have stillGone : building.page.Gone :=
      continues.sound.gone_of_destroyed (continues.ended gone.destroyed)
    refine ⟨?_, ?_, ?_, ?_, continues.counter_le⟩
    · intro id
      rw [stillGone.component?_eq_none, gone.component?_eq_none]
    · intro id
      simp only [children, stillGone.component?_eq_none, gone.component?_eq_none]
    · intro id _
      rw [stillGone.component?_eq_none, gone.component?_eq_none]
    · intro original found
      rw [gone.component?_eq_none] at found
      cases found

/-- Nothing is left of the box around a text that is neither shown nor hidden. -/
theorem faulty_page_is_taken_back :
    ∃ blueprint building error,
      (PageParser.new .core).parse .empty (.ofText
        "<fsp><page title=\"News\"/><div><span visible=\"maybe\">hello</span></div></fsp>") =
        .ok blueprint ∧
      (new "p" "news" 0).materialize blueprint.tree none = (building, .error error) ∧
      Restored blueprint.tree (new "p" "news" 0) building.page := by
  have isRead : (((PageParser.new .core).parse .empty (.ofText
      "<fsp><page title=\"News\"/><div><span visible=\"maybe\">hello</span></div></fsp>")).toOption.map
        (fun blueprint => ((new "p" "news" 0).materialize blueprint.tree none).2.toOption)) =
        some none := by
    decide +kernel
  obtain ⟨blueprint, isSome, noIds⟩ := Option.map_eq_some_iff.mp isRead
  cases outcome : (new "p" "news" 0).materialize blueprint.tree none with
  | mk building result =>
      rw [outcome] at noIds
      cases result with
      | ok ids => cases noIds
      | error error =>
          have arises : (new "p" "news" 0).Arises := ⟨"p", "news", 0, [], rfl⟩
          exact ⟨blueprint, building, error, eq_ok_of_toOption isSome, outcome,
            restored_of_materialize_error arises outcome⟩

end LivePage.PageState
