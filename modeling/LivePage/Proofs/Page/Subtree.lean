import LivePage.Proofs.Page.History

/-!
Contract: discarding takes away one subtree of a page, whatever the page went through before.

Owns:
- how many components a sweep removes;
- the components after discarding any id, also one that names no component;
- discarding twice, in either order;
- what discarding does to every page that some calls have led to.

Does not own: the tree that the components form.
-/

namespace LivePage

namespace PageState

/-! ## Counting -/

/-- A sweep counts what it removes: all components that child lists lead to, once each. -/
theorem count_sweep (components : Dict Component) (pending : List String) :
    ∃ removed : List String, removed.Nodup ∧
      (∀ id, id ∈ removed ↔ Leads components pending id ∧ components.get? id ≠ none) ∧
      (sweep components pending).2 = removed.length := by
  fun_induction sweep components pending with
  | case1 components =>
      refine ⟨[], List.nodup_nil, ?_, rfl⟩
      intro id
      simp [not_leads_nil]
  | case2 components top rest absent inductionHypothesis =>
      obtain ⟨removed, distinct, areLed, counted⟩ := inductionHypothesis
      refine ⟨removed, distinct, ?_, counted⟩
      intro id
      rw [areLed, leads_cons_of_absent absent]
      constructor
      · intro both
        exact ⟨Or.inr both.1, both.2⟩
      · rintro ⟨rfl | ledByRest, present⟩
        · exact absurd absent present
        · exact ⟨ledByRest, present⟩
  | case3 components top rest component found swept count swept_eq inductionHypothesis =>
      obtain ⟨removed, distinct, areLed, counted⟩ := inductionHypothesis
      rw [swept_eq] at counted
      have topIsErased : (components.erase top).get? top = none := by
        rw [Dict.get?_erase, if_pos rfl]
      have notAgain : top ∉ removed := fun member => ((areLed top).mp member).2 topIsErased
      refine ⟨top :: removed, List.nodup_cons.mpr ⟨notAgain, distinct⟩, ?_,
        congrArg (· + 1) counted⟩
      intro id
      rw [List.mem_cons, areLed, leads_cons_of_found found]
      by_cases isTop : id = top
      · simp [isTop, found]
      · simp [isTop, Dict.get?_erase]

/-! ## Subtrees -/

section Subtrees

variable {page : PageState} {top : String}

theorem discard_eq_of_absent {id : String} (absent : id = page.id ∨ page.component? id = none) :
    page.discard id = (page, 0) := by
  unfold discard
  split
  · rfl
  · next notPage => rw [absent.resolve_left notPage]

theorem found_of_below {component : Component} (found : page.component? top = some component)
    {id : String} (isBelow : page.Below top id) : page.component? id ≠ none := by
  rcases Relation.ReflTransGen.cases_head isBelow with rfl | ⟨parent, ⟨below, foundBelow, -⟩, -⟩
  · simp [found]
  · simp [foundBelow]

/-- Discarding counts the components of the subtree. -/
theorem count_discard (intact : page.Intact) (notPage : top ≠ page.id) {component : Component}
    (found : page.component? top = some component) :
    ∃ removed : List String, removed.Nodup ∧ (∀ id, id ∈ removed ↔ page.Below top id) ∧
      (page.discard top).2 = removed.length := by
  obtain ⟨removed, distinct, areLed, counted⟩ :=
    count_sweep (page.unlinked top component) component.children
  have isCounted : (page.discard top).2 =
      (sweep (page.unlinked top component) component.children).2 + 1 := by
    cases hasParent : component.parent <;>
      simp only [discard, if_neg notPage, found, unlinked, hasParent]
  have areBelow : ∀ id, id ∈ removed ↔ id ≠ top ∧ page.Below top id := by
    intro id
    rw [areLed, leads_unlinked_iff intact notPage found]
    constructor
    · exact fun both => both.1
    · rintro ⟨notTop, isBelow⟩
      refine ⟨⟨notTop, isBelow⟩, ?_⟩
      rw [get?_unlinked intact notPage found notTop]
      simpa using found_of_below found isBelow
  have topNotAmong : top ∉ removed := fun member => ((areBelow top).mp member).1 rfl
  refine ⟨top :: removed, List.nodup_cons.mpr ⟨topNotAmong, distinct⟩, ?_, ?_⟩
  · intro id
    rw [List.mem_cons, areBelow]
    by_cases isTop : id = top
    · subst isTop
      simp [Below, Relation.ReflTransGen.refl]
    · simp [isTop]
  · rw [isCounted, counted, List.length_cons]

/-- Only its parent lists a component. -/
theorem removeChild_of_other (intact : page.Intact) {component : Component}
    (found : page.component? top = some component) {id : String} {other : Component}
    (foundOther : page.component? id = some other) (notParent : component.parent ≠ some id) :
    other.removeChild top = other := by
  apply removeChild_of_not_mem
  intro member
  obtain ⟨below, foundBelow, pointsBack⟩ := intact.listed foundOther member
  rw [found] at foundBelow
  cases foundBelow
  exact notParent pointsBack

theorem not_listed_of_absent (intact : page.Intact) (absent : page.component? top = none)
    {id : String} {other : Component} (foundOther : page.component? id = some other) :
    top ∉ other.children := by
  intro member
  obtain ⟨below, foundBelow, -⟩ := intact.listed foundOther member
  rw [absent] at foundBelow
  cases foundBelow

theorem below_of_absent (intact : page.Intact) (absent : page.component? top = none)
    {id : String} : page.Below top id ↔ id = top := by
  constructor
  · intro isBelow
    rcases Relation.ReflTransGen.cases_tail isBelow with same | ⟨child, -, hangs⟩
    · exact same.symm
    · obtain ⟨above, foundAbove, -⟩ := intact.above_of_hangsIn hangs
      rw [absent] at foundAbove
      cases foundAbove
  · rintro rfl
    exact .refl

open Classical in
/-- The components after discarding any id but the page's own, a known one or an unknown one. -/
theorem component?_discard (intact : page.Intact) (notPage : top ≠ page.id) (id : String) :
    (page.discard top).1.component? id =
      if page.Below top id then none
      else (page.component? id).map (fun other => other.removeChild top) := by
  cases found : page.component? top with
  | some component =>
      split
      · next isBelow => exact component?_discard_of_below intact notPage found isBelow
      · next notBelow => exact component?_discard_of_not_below intact notPage found notBelow
  | none =>
      rw [discard_of_absent found]
      split
      · next isBelow => rw [(below_of_absent intact found).mp isBelow, found]
      · cases foundOther : page.component? id with
        | none => rfl
        | some other =>
            rw [Option.map_some, removeChild_of_not_mem (not_listed_of_absent intact found foundOther)]

theorem discard_fst_eq (page : PageState) (top : String) :
    (page.discard top).1 = { page with components := (page.discard top).1.components } := by
  unfold discard
  split
  · rfl
  · split <;> rfl

/-! ## Discarding twice -/

variable {first second : String}

theorem hangsIn_discard_iff (intact : page.Intact) (notPage : top ≠ page.id)
    {child parent : String} :
    (page.discard top).1.HangsIn child parent ↔
      page.HangsIn child parent ∧ ¬page.Below top child := by
  unfold HangsIn
  rw [component?_discard intact notPage child]
  split
  · next isBelow => simp [isBelow]
  · next notBelow =>
      simp only [notBelow, not_false_eq_true, and_true, Option.map_eq_some_iff]
      constructor
      · rintro ⟨-, ⟨original, found, rfl⟩, hasParent⟩
        exact ⟨original, found, hasParent⟩
      · rintro ⟨original, found, hasParent⟩
        exact ⟨original.removeChild top, ⟨original, found, rfl⟩, hasParent⟩

theorem below_of_discard (intact : page.Intact) (notPage : first ≠ page.id) {id : String}
    (isBelow : (page.discard first).1.Below second id) : page.Below second id :=
  Relation.ReflTransGen.mono
    (fun _ _ hangs => ((hangsIn_discard_iff intact notPage).mp hangs).1) _ _ isBelow

/-- What is not below the discarded component hangs where it hung before. -/
theorem below_discard_iff (intact : page.Intact) (notPage : first ≠ page.id) {id : String}
    (notBelow : ¬page.Below first id) :
    (page.discard first).1.Below second id ↔ page.Below second id := by
  constructor
  · exact below_of_discard intact notPage
  · intro isBelow
    induction isBelow using Relation.ReflTransGen.head_induction_on with
    | refl => exact .refl
    | @head child parent hangs _ inductionHypothesis =>
        have parentNotBelow : ¬page.Below first parent := fun above => notBelow (.head hangs above)
        exact .head ((hangsIn_discard_iff intact notPage).mpr ⟨hangs, notBelow⟩)
          (inductionHypothesis parentNotBelow)

theorem removeChild_comm (component : Component) (first second : String) :
    (component.removeChild first).removeChild second =
      (component.removeChild second).removeChild first := by
  simp only [Component.removeChild, List.filter_filter, Bool.and_comm]

open Classical in
/-- After discarding two ids, all that was below either of them is gone. -/
theorem component?_discard_discard (intact : page.Intact) (firstNotPage : first ≠ page.id)
    (secondNotPage : second ≠ page.id) (id : String) :
    ((page.discard first).1.discard second).1.component? id =
      if page.Below first id ∨ page.Below second id then none
      else (page.component? id).map (fun other => (other.removeChild first).removeChild second) := by
  have stillNotPage : second ≠ (page.discard first).1.id := by
    rw [id_discard]
    exact secondNotPage
  rw [component?_discard (intact.discard first) stillNotPage, component?_discard intact firstNotPage]
  by_cases inFirst : page.Below first id
  · simp [inFirst]
  · rw [below_discard_iff intact firstNotPage inFirst]
    by_cases inSecond : page.Below second id <;> simp [inFirst, inSecond, Function.comp_def]

theorem discard_discard_eq (page : PageState) (first second : String) :
    ((page.discard first).1.discard second).1 =
      { page with components := ((page.discard first).1.discard second).1.components } := by
  generalize isLeft : ((page.discard first).1.discard second).1.components = left
  have frame := discard_fst_eq (page.discard first).1 second
  rw [isLeft] at frame
  exact frame.trans (congrArg (fun other : PageState => { other with components := left })
    (discard_fst_eq page first))

/-- The order in which two ids are discarded does not matter, even when one is below the other. -/
theorem discard_comm (intact : page.Intact) (first second : String) :
    ((page.discard first).1.discard second).1 = ((page.discard second).1.discard first).1 := by
  by_cases firstIsPage : first = page.id
  · have stillPage : first = (page.discard second).1.id := by rw [id_discard, firstIsPage]
    rw [discard_eq_of_absent (Or.inl firstIsPage), discard_eq_of_absent (Or.inl stillPage)]
  by_cases secondIsPage : second = page.id
  · have stillPage : second = (page.discard first).1.id := by rw [id_discard, secondIsPage]
    rw [discard_eq_of_absent (Or.inl secondIsPage), discard_eq_of_absent (Or.inl stillPage)]
  have sameComponents : ((page.discard first).1.discard second).1.components =
      ((page.discard second).1.discard first).1.components := by
    apply Dict.ext_get?
    intro id
    have firstThenSecond := component?_discard_discard intact firstIsPage secondIsPage id
    have secondThenFirst := component?_discard_discard intact secondIsPage firstIsPage id
    unfold component? at firstThenSecond secondThenFirst
    rw [firstThenSecond, secondThenFirst]
    by_cases isGone : page.Below first id ∨ page.Below second id
    · rw [if_pos isGone, if_pos isGone.symm]
    · rw [if_neg isGone, if_neg (fun other => isGone other.symm)]
      simp only [removeChild_comm _ first second]
  calc ((page.discard first).1.discard second).1
      = { page with components := ((page.discard first).1.discard second).1.components } :=
        discard_discard_eq page first second
    _ = { page with components := ((page.discard second).1.discard first).1.components } := by
        rw [sameComponents]
    _ = ((page.discard second).1.discard first).1 := (discard_discard_eq page second first).symm

/-- Discarding one of two disjoint subtrees leaves the other one as large as it was. -/
theorem count_discard_discard (intact : page.Intact)
    (disjoint : ∀ id, ¬(page.Below first id ∧ page.Below second id)) :
    ((page.discard first).1.discard second).2 = (page.discard second).2 := by
  by_cases firstIsPage : first = page.id
  · rw [discard_eq_of_absent (Or.inl firstIsPage)]
  by_cases secondIsPage : second = page.id
  · have stillPage : second = (page.discard first).1.id := by rw [id_discard, secondIsPage]
    rw [discard_eq_of_absent (Or.inl secondIsPage), discard_eq_of_absent (Or.inl stillPage)]
  have stillNotPage : second ≠ (page.discard first).1.id := by
    rw [id_discard]
    exact secondIsPage
  have notBelow : ∀ {id}, page.Below second id → ¬page.Below first id :=
    fun inSecond inFirst => disjoint _ ⟨inFirst, inSecond⟩
  have secondIsLeft : (page.discard first).1.component? second =
      (page.component? second).map (fun other => other.removeChild first) := by
    rw [component?_discard intact firstIsPage, if_neg (notBelow .refl)]
  cases found : page.component? second with
  | none =>
      rw [found] at secondIsLeft
      rw [discard_eq_of_absent (Or.inr found), discard_eq_of_absent (Or.inr secondIsLeft)]
  | some component =>
      rw [found] at secondIsLeft
      obtain ⟨before, beforeDistinct, areBefore, beforeCounted⟩ :=
        count_discard intact secondIsPage found
      obtain ⟨after, afterDistinct, areAfter, afterCounted⟩ :=
        count_discard (intact.discard first) stillNotPage secondIsLeft
      have sameSubtree : ∀ id, id ∈ after ↔ id ∈ before := by
        intro id
        rw [areAfter, areBefore]
        by_cases inFirst : page.Below first id
        · have notInSecond : ¬page.Below second id := fun inSecond => notBelow inSecond inFirst
          have notAfter : ¬(page.discard first).1.Below second id := fun isAfter =>
            notInSecond (below_of_discard intact firstIsPage isAfter)
          exact iff_of_false notAfter notInSecond
        · exact below_discard_iff intact firstIsPage inFirst
      rw [afterCounted, beforeCounted]
      exact ((List.perm_ext_iff_of_nodup afterDistinct beforeDistinct).mpr sameSubtree).length_eq

end Subtrees

/-- Whatever a page went through, discarding its own id or an unknown one changes nothing.
Discarding any other id removes the components of its subtree and counts them; what is left
differs only in the child list of the parent. Two subtrees can be discarded in either order,
and counts do not depend on the order when the subtrees are disjoint. -/
theorem discard_removes_one_subtree (id src : String) (createdAt : Nat) (calls : List PageCall) :
    let page := ((new id src createdAt).performAll calls).1
    (∀ top, top = page.id ∨ page.component? top = none → page.discard top = (page, 0)) ∧
      (∀ top component, top ≠ page.id → page.component? top = some component →
        ∃ (left : Dict Component) (removed : List String),
          page.discard top = ({ page with components := left }, removed.length) ∧
          removed.Nodup ∧
          (∀ other, other ∈ removed ↔ page.Below top other) ∧
          (∀ other, other ∈ removed → left.get? other = none) ∧
          ∀ other, other ∉ removed → left.get? other = (page.component? other).map fun kept =>
            if component.parent = some other then
              { kept with children := kept.children.filter (fun child => child ≠ top) }
            else kept) ∧
      ∀ first second,
        ((page.discard first).1.discard second).1 = ((page.discard second).1.discard first).1 ∧
        ((∀ other, ¬(page.Below first other ∧ page.Below second other)) →
          ((page.discard first).1.discard second).2 = (page.discard second).2 ∧
          ((page.discard second).1.discard first).2 = (page.discard first).2) := by
  intro page
  have sound : page.Sound := Arises.sound ⟨id, src, createdAt, calls, rfl⟩
  refine ⟨fun top absent => discard_eq_of_absent absent, ?_, ?_⟩
  · intro top component notPage found
    have intact := sound.intact_of_found found
    obtain ⟨removed, distinct, areBelow, counted⟩ := count_discard intact notPage found
    refine ⟨(page.discard top).1.components, removed,
      Prod.ext (discard_fst_eq page top) counted, distinct, areBelow, ?_, ?_⟩
    · intro other member
      exact component?_discard_of_below intact notPage found ((areBelow other).mp member)
    · intro other notMember
      have notBelow : ¬page.Below top other := fun isBelow =>
        notMember ((areBelow other).mpr isBelow)
      refine (component?_discard_of_not_below intact notPage found notBelow).trans ?_
      apply Option.map_congr
      intro kept foundKept
      split
      · rfl
      · next notParent => exact removeChild_of_other intact found foundKept notParent
  · intro first second
    rcases sound with intact | gone
    · refine ⟨discard_comm intact first second, ?_⟩
      intro disjoint
      have swapped : ∀ other, ¬(page.Below second other ∧ page.Below first other) :=
        fun other both => disjoint other both.symm
      exact ⟨count_discard_discard intact disjoint, count_discard_discard intact swapped⟩
    · have absent : ∀ top, page.discard top = (page, 0) := fun top =>
        discard_eq_of_absent (Or.inr (gone.component?_eq_none top))
      simp [absent]

end PageState

end LivePage
