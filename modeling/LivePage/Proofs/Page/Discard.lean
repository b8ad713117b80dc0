import LivePage.Proofs.Page.ComponentTree

/-!
Contract: discarding a component takes away exactly what hangs below it.

Owns:
- what a sweep removes: everything that child lists lead to;
- the components left after one was discarded, and their child lists;
- discarding keeps a page intact.

Does not own: which components are discarded, and when.
-/

namespace LivePage

namespace PageState

/-! ## Sweeps -/

/-- Whether child lists lead from some starting ids to an id. -/
inductive Leads (components : Dict Component) (starts : List String) : String → Prop where
  | start {id : String} (member : id ∈ starts) : Leads components starts id
  | child {id child : String} {component : Component} (led : Leads components starts id)
      (found : components.get? id = some component) (member : child ∈ component.children) :
      Leads components starts child

theorem not_leads_nil {components : Dict Component} {id : String} :
    ¬Leads components [] id := by
  intro leads
  induction leads with
  | start member => cases member
  | child _ _ _ inductionHypothesis => exact inductionHypothesis

private theorem Leads.mono {components : Dict Component} {starts more : List String} {id : String}
    (leads : Leads components starts id) (included : starts ⊆ more) :
    Leads components more id := by
  induction leads with
  | start member => exact .start (included member)
  | child _ found member inductionHypothesis => exact .child inductionHypothesis found member

theorem leads_cons_of_absent {components : Dict Component} {top : String}
    (absent : components.get? top = none) {rest : List String} {id : String} :
    Leads components (top :: rest) id ↔ id = top ∨ Leads components rest id := by
  constructor
  · intro leads
    induction leads with
    | start member =>
        rcases List.mem_cons.mp member with isTop | inRest
        · exact Or.inl isTop
        · exact Or.inr (.start inRest)
    | child led found member inductionHypothesis =>
        rcases inductionHypothesis with rfl | ledByRest
        · rw [absent] at found
          cases found
        · exact Or.inr (.child ledByRest found member)
  · intro choice
    rcases choice with rfl | leads
    · exact .start List.mem_cons_self
    · exact leads.mono (List.subset_cons_self _ _)

/-- Taking the first id off, its children are led to without it. -/
theorem leads_cons_of_found {components : Dict Component} {top : String}
    {component : Component} (found : components.get? top = some component) {rest : List String}
    {id : String} :
    Leads components (top :: rest) id ↔
      id = top ∨ Leads (components.erase top) (component.children ++ rest) id := by
  constructor
  · intro leads
    induction leads with
    | start member =>
        rcases List.mem_cons.mp member with isTop | inRest
        · exact Or.inl isTop
        · exact Or.inr (.start (List.mem_append_right _ inRest))
    | @child parent child above led foundAbove member inductionHypothesis =>
        refine Or.inr ?_
        by_cases isTop : parent = top
        · rw [isTop, found] at foundAbove
          cases foundAbove
          exact .start (List.mem_append_left _ member)
        · have ledBelow := inductionHypothesis.resolve_left isTop
          refine .child ledBelow ?_ member
          rw [Dict.get?_erase, if_neg isTop]
          exact foundAbove
  · intro choice
    rcases choice with rfl | leads
    · exact .start List.mem_cons_self
    · have topIsLed : Leads components (top :: rest) top := .start List.mem_cons_self
      induction leads with
      | start member =>
          rcases List.mem_append.mp member with isChild | inRest
          · exact .child topIsLed found isChild
          · exact .start (List.mem_cons_of_mem _ inRest)
      | child led foundAbove member inductionHypothesis =>
          rw [Dict.get?_erase] at foundAbove
          split at foundAbove
          · cases foundAbove
          · exact .child inductionHypothesis foundAbove member

/-- A sweep removes everything that child lists lead to, and nothing else. -/
theorem get?_sweep (components : Dict Component) (pending : List String) (id : String) :
    (Leads components pending id → (sweep components pending).1.get? id = none) ∧
      (¬Leads components pending id →
        (sweep components pending).1.get? id = components.get? id) := by
  fun_induction sweep components pending with
  | case1 components => exact ⟨fun leads => absurd leads not_leads_nil, fun _ => rfl⟩
  | case2 components top rest absent inductionHypothesis =>
      rw [leads_cons_of_absent absent]
      constructor
      · intro leads
        by_cases ledByRest : Leads components rest id
        · exact inductionHypothesis.1 ledByRest
        · have isTop := leads.resolve_right ledByRest
          rw [inductionHypothesis.2 ledByRest, isTop, absent]
      · intro notLed
        exact inductionHypothesis.2 (fun ledByRest => notLed (Or.inr ledByRest))
  | case3 components top rest component found swept count swept_eq inductionHypothesis =>
      rw [swept_eq] at inductionHypothesis
      rw [leads_cons_of_found found]
      constructor
      · intro leads
        by_cases ledBelow : Leads (components.erase top) (component.children ++ rest) id
        · exact inductionHypothesis.1 ledBelow
        · have isTop := leads.resolve_right ledBelow
          have kept := inductionHypothesis.2 ledBelow
          rwa [Dict.get?_erase, if_pos isTop] at kept
      · intro notLed
        have kept := inductionHypothesis.2 (fun ledBelow => notLed (Or.inr ledBelow))
        have notTop : id ≠ top := fun isTop => notLed (Or.inl isTop)
        rwa [Dict.get?_erase, if_neg notTop] at kept

/-! ## What is left -/

/-- A component is below another one if it is that one or hangs below it. -/
def Below (page : PageState) (top id : String) : Prop :=
  Relation.ReflTransGen page.HangsIn id top

/-- The page's components without one of them, which its parent no longer lists. -/
def unlinked (page : PageState) (top : String) (component : Component) : Dict Component :=
  match component.parent with
  | some parent => (page.components.erase top).modify parent (fun above => above.removeChild top)
  | none => page.components.erase top

theorem discard_page (page : PageState) : (page.discard page.id).1 = page := by
  simp [discard]

theorem discard_of_absent {page : PageState} {id : String} (absent : page.component? id = none) :
    (page.discard id).1 = page := by
  unfold discard
  split
  · rfl
  · rw [absent]

theorem discard_of_found {page : PageState} {top : String} {component : Component}
    (notPage : top ≠ page.id) (found : page.component? top = some component) :
    (page.discard top).1 =
      { page with components := (sweep (page.unlinked top component) component.children).1 } := by
  cases hasParent : component.parent with
  | none => simp only [discard, if_neg notPage, found, unlinked, hasParent]
  | some parent => simp only [discard, if_neg notPage, found, unlinked, hasParent]

theorem mem_children_removeChild {component : Component} {removed child : String} :
    child ∈ (component.removeChild removed).children ↔
      child ∈ component.children ∧ child ≠ removed := by
  simp [Component.removeChild]

theorem removeChild_of_not_mem {component : Component} {removed : String}
    (notListed : removed ∉ component.children) : component.removeChild removed = component := by
  have same : component.children.filter (· ≠ removed) = component.children := by
    apply List.filter_eq_self.mpr
    intro child member
    have different : child ≠ removed := fun isRemoved => notListed (isRemoved ▸ member)
    simpa using different
  unfold Component.removeChild
  rw [same]

section Discarded

variable {page : PageState} {top : String} {component : Component}

/-- All components but the unlinked one are there; none lists it any more. -/
theorem get?_unlinked (intact : page.Intact) (notPage : top ≠ page.id)
    (found : page.component? top = some component) {id : String} (notTop : id ≠ top) :
    (page.unlinked top component).get? id =
      (page.component? id).map (fun other => other.removeChild top) := by
  obtain ⟨parent, above, hasParent, foundAbove, -⟩ := intact.hangs found notPage
  have hangs : page.HangsIn top parent := ⟨component, found, hasParent⟩
  have parentNotTop := (intact.ne_of_hangsIn hangs).symm
  unfold unlinked
  rw [hasParent]
  dsimp only
  rw [Dict.get?_modify, Dict.get?_erase, Dict.get?_erase, if_neg notTop, if_neg parentNotTop]
  by_cases isParent : id = parent
  · rw [if_pos isParent, isParent]
    rfl
  · rw [if_neg isParent]
    cases foundOther : page.component? id with
    | none => exact foundOther
    | some other =>
        have notListed : top ∉ other.children := by
          intro member
          obtain ⟨below, foundBelow, pointsBack⟩ := intact.listed foundOther member
          rw [found] at foundBelow
          cases foundBelow
          rw [hasParent] at pointsBack
          exact isParent (Option.some.inj pointsBack).symm
        rw [Option.map_some, removeChild_of_not_mem notListed]
        exact foundOther

/-- From the children of an unlinked component, child lists lead to all that was below it. -/
theorem leads_unlinked_iff (intact : page.Intact) (notPage : top ≠ page.id)
    (found : page.component? top = some component) {id : String} :
    Leads (page.unlinked top component) component.children id ↔ id ≠ top ∧ page.Below top id := by
  constructor
  · intro leads
    induction leads with
    | @start id member =>
        obtain ⟨below, foundBelow, pointsBack⟩ := intact.listed found member
        have hangs : page.HangsIn id top := ⟨below, foundBelow, pointsBack⟩
        exact ⟨intact.ne_of_hangsIn hangs, .single hangs⟩
    | @child id child above _ foundAbove member inductionHypothesis =>
        obtain ⟨notTop, isBelow⟩ := inductionHypothesis
        rw [get?_unlinked intact notPage found notTop] at foundAbove
        obtain ⟨original, foundOriginal, rfl⟩ := Option.map_eq_some_iff.mp foundAbove
        obtain ⟨listed, childNotTop⟩ := mem_children_removeChild.mp member
        obtain ⟨below, foundBelow, pointsBack⟩ := intact.listed foundOriginal listed
        exact ⟨childNotTop, .head ⟨below, foundBelow, pointsBack⟩ isBelow⟩
  · intro both
    obtain ⟨notTop, isBelow⟩ := both
    induction isBelow using Relation.ReflTransGen.head_induction_on with
    | refl => exact absurd rfl notTop
    | @head child parent hangs isBelow inductionHypothesis =>
        obtain ⟨above, foundAbove, listed⟩ := intact.above_of_hangsIn hangs
        by_cases isTop : parent = top
        · rw [isTop, found] at foundAbove
          cases foundAbove
          exact .start listed
        · have stillFound : (page.unlinked top component).get? parent =
              some (above.removeChild top) := by
            rw [get?_unlinked intact notPage found isTop, foundAbove]
            rfl
          exact .child (inductionHypothesis isTop) stillFound
            (mem_children_removeChild.mpr ⟨listed, notTop⟩)

/-- Discarding takes away what is below a component. -/
theorem component?_discard_of_below (intact : page.Intact) (notPage : top ≠ page.id)
    (found : page.component? top = some component) {id : String} (isBelow : page.Below top id) :
    (page.discard top).1.component? id = none := by
  rw [discard_of_found notPage found]
  have swept := get?_sweep (page.unlinked top component) component.children id
  rw [leads_unlinked_iff intact notPage found] at swept
  by_cases isTop : id = top
  · have kept := swept.2 (fun both => both.1 isTop)
    obtain ⟨parent, above, hasParent, foundAbove, -⟩ := intact.hangs found notPage
    have parentNotTop := intact.ne_of_hangsIn ⟨component, found, hasParent⟩
    refine kept.trans ?_
    unfold unlinked
    rw [hasParent]
    dsimp only
    rw [isTop, Dict.get?_modify, if_neg parentNotTop, Dict.get?_erase, if_pos rfl]
  · exact swept.1 ⟨isTop, isBelow⟩

/-- Discarding leaves every other component, without the discarded one among its children. -/
theorem component?_discard_of_not_below (intact : page.Intact) (notPage : top ≠ page.id)
    (found : page.component? top = some component) {id : String} (notBelow : ¬page.Below top id) :
    (page.discard top).1.component? id =
      (page.component? id).map (fun other => other.removeChild top) := by
  have notTop : id ≠ top := by
    intro isTop
    exact notBelow (isTop ▸ .refl)
  rw [discard_of_found notPage found]
  have swept := get?_sweep (page.unlinked top component) component.children id
  rw [leads_unlinked_iff intact notPage found] at swept
  have kept := swept.2 (fun both => notBelow both.2)
  exact kept.trans (get?_unlinked intact notPage found notTop)

/-- A component that is left is one of those before. -/
theorem found_of_discard (intact : page.Intact) (notPage : top ≠ page.id)
    (found : page.component? top = some component) {id : String} {left : Component}
    (isLeft : (page.discard top).1.component? id = some left) :
    ¬page.Below top id ∧ ∃ original, page.component? id = some original ∧
      left = original.removeChild top := by
  by_cases isBelow : page.Below top id
  · rw [component?_discard_of_below intact notPage found isBelow] at isLeft
    cases isLeft
  · rw [component?_discard_of_not_below intact notPage found isBelow] at isLeft
    obtain ⟨original, foundOriginal, same⟩ := Option.map_eq_some_iff.mp isLeft
    exact ⟨isBelow, original, foundOriginal, same.symm⟩

theorem not_below_page (intact : page.Intact) (notPage : top ≠ page.id) :
    ¬page.Below top page.id := by
  intro isBelow
  rcases Relation.ReflTransGen.cases_head isBelow with same | ⟨parent, hangs, -⟩
  · exact notPage same.symm
  · exact intact.ne_page_of_hangsIn hangs rfl

end Discarded

theorem id_discard (page : PageState) (top : String) : (page.discard top).1.id = page.id := by
  unfold discard
  split
  · rfl
  · split <;> rfl

theorem nextComponent_discard (page : PageState) (top : String) :
    (page.discard top).1.nextComponent = page.nextComponent := by
  unfold discard
  split
  · rfl
  · split <;> rfl

theorem isDestroyed_discard (page : PageState) (top : String) :
    (page.discard top).1.isDestroyed = page.isDestroyed := by
  unfold discard
  split
  · rfl
  · split <;> rfl

/-- Discarding keeps a page intact. -/
theorem Intact.discard {page : PageState} (intact : page.Intact) (top : String) :
    (page.discard top).1.Intact := by
  by_cases isPage : top = page.id
  · rw [isPage, discard_page]
    exact intact
  cases found : page.component? top with
  | none =>
      rw [discard_of_absent found]
      exact intact
  | some component =>
      have stays : ∀ {id original}, page.component? id = some original →
          ¬page.Below top id → ∃ left, (page.discard top).1.component? id = some left := by
        intro id original foundOriginal notBelow
        rw [component?_discard_of_not_below intact isPage found notBelow, foundOriginal]
        exact ⟨original.removeChild top, rfl⟩
      refine intact.leaves ⟨(isDestroyed_discard page top).trans intact.alive, id_discard page top,
        Nat.le_of_eq (nextComponent_discard page top).symm, ?_, ?_, ?_⟩
      · obtain ⟨own, foundOwn, -⟩ := intact.root
        exact stays foundOwn (not_below_page intact isPage)
      · intro id left isLeft
        obtain ⟨notBelow, original, foundOriginal, rfl⟩ :=
          found_of_discard intact isPage found isLeft
        refine ⟨original, foundOriginal, rfl, rfl, ?_, ?_⟩
        · intro child member
          obtain ⟨listed, childNotTop⟩ := mem_children_removeChild.mp member
          obtain ⟨below, foundBelow, pointsBack⟩ := intact.listed foundOriginal listed
          refine ⟨listed, stays foundBelow ?_⟩
          -- A child below the discarded component has its parent there as well.
          intro isBelow
          rcases Relation.ReflTransGen.cases_head isBelow with same | ⟨parent, hangs, above⟩
          · exact childNotTop same
          · obtain ⟨other, foundOther, hasParent⟩ := hangs
            rw [foundBelow] at foundOther
            cases foundOther
            rw [pointsBack] at hasParent
            cases hasParent
            exact notBelow above
        · intro child below childIsLeft
          obtain ⟨childNotBelow, -⟩ := found_of_discard intact isPage found childIsLeft
          have notTop : child ≠ top := fun isTop => childNotBelow (isTop ▸ .refl)
          rw [Component.removeChild, List.count_filter (by simpa using notTop)]
      · intro id left parent isLeft hasParent
        obtain ⟨notBelow, original, foundOriginal, rfl⟩ :=
          found_of_discard intact isPage found isLeft
        have hangs : page.HangsIn id parent := ⟨original, foundOriginal, hasParent⟩
        obtain ⟨above, foundAbove, -⟩ := intact.above_of_hangsIn hangs
        exact stays foundAbove (fun isBelow => notBelow (.head hangs isBelow))

/-- What is still listed after discarding was listed before, and is not what was discarded. -/
theorem mem_children_of_discard {page : PageState} (intact : page.Intact) {top : String}
    (notPage : top ≠ page.id) {id child : String}
    (member : child ∈ (page.discard top).1.children id) :
    child ∈ page.children id ∧ child ≠ top := by
  cases found : page.component? top with
  | none =>
      rw [discard_of_absent found] at member
      refine ⟨member, ?_⟩
      intro isTop
      unfold children at member
      split at member
      · next above foundAbove =>
          obtain ⟨below, foundBelow, -⟩ := intact.listed foundAbove member
          rw [isTop, found] at foundBelow
          cases foundBelow
      · cases member
  | some component =>
      unfold children at member
      split at member
      · next left isLeft =>
          obtain ⟨-, original, foundOriginal, rfl⟩ := found_of_discard intact notPage found isLeft
          simp only [children, foundOriginal]
          exact mem_children_removeChild.mp member
      · cases member

end PageState

end LivePage
