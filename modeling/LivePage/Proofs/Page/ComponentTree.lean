import LivePage.Page.State
import Mathlib.Logic.Relation

/-!
Contract: the components of a page form a tree.

Owns:
- the ids that a page gives to its components, one for each number;
- the tree of components: parents and child lists that agree, and a way from every
  component up to the page's own;
- intact pages, whose components form a tree because every component hangs in an
  earlier one;
- what is left of an intact page is intact, as are pages with single components changed or
  attached.

Does not own: the removal of components, and what components show.
-/

namespace LivePage

/-! ## Ids -/

/-- The id that a page gives to the component of a number. -/
def numberedId (page : String) (number : Nat) : String :=
  page ++ "_" ++ toString number

theorem numberedId_inj {page : String} {left right : Nat} :
    numberedId page left = numberedId page right ↔ left = right := by
  constructor
  · intro same
    have sameChars := congrArg String.toList same
    simp only [numberedId, String.toList_append, List.append_assoc] at sameChars
    have sameDigits : left.repr.toList = right.repr.toList :=
      List.append_cancel_left (List.append_cancel_left sameChars)
    rw [Nat.toList_repr, Nat.toList_repr] at sameDigits
    have readBack := congrArg (fun digits => Nat.ofDigitChars 10 digits 0) sameDigits
    simpa [Nat.ofDigitChars_toDigits] using readBack
  · intro same
    rw [same]

theorem numberedId_ne_page (page : String) (number : Nat) : numberedId page number ≠ page := by
  intro same
  have sameLength := congrArg String.length same
  have mark : ("_" : String).length = 1 := rfl
  simp only [numberedId, String.length_append, mark] at sameLength
  omega

/-- A component that hangs in another one. -/
def Component.under (component : Component) (parent : String) : Component :=
  { component with parent := some parent }

namespace Component

/-- A component, with one more child if it is the one that the child comes to hang in. -/
def adopting (component : Component) (isParent : Prop) [Decidable isParent] (child : String) :
    Component :=
  if isParent then component.addChild child else component

variable {component : Component} {isParent : Prop} [Decidable isParent] {child other : String}

theorem adopting_id (component : Component) (isParent : Prop) [Decidable isParent]
    (child : String) : (component.adopting isParent child).id = component.id := by
  unfold adopting
  split <;> rfl

theorem adopting_parent (component : Component) (isParent : Prop) [Decidable isParent]
    (child : String) : (component.adopting isParent child).parent = component.parent := by
  unfold adopting
  split <;> rfl

theorem mem_children_adopting :
    other ∈ (component.adopting isParent child).children ↔
      other ∈ component.children ∨ isParent ∧ other = child := by
  unfold adopting
  split <;> simp [addChild, *]

theorem count_adopting_self (adopts : isParent) (notListed : child ∉ component.children) :
    (component.adopting isParent child).children.count child = 1 := by
  rw [adopting, if_pos adopts, addChild, List.count_append,
    List.count_eq_zero_of_not_mem notListed, List.count_singleton_self]

theorem count_adopting_of_ne (notNew : other ≠ child) :
    (component.adopting isParent child).children.count other =
      component.children.count other := by
  unfold adopting
  split
  · simp [addChild, notNew.symm]
  · rfl

end Component

namespace PageState

theorem nextId_eq (page : PageState) : page.nextId = numberedId page.id page.nextComponent := rfl

/-! ## Trees of components -/

/-- A component hangs in the one that it names as its parent. -/
def HangsIn (page : PageState) (child parent : String) : Prop :=
  ∃ component, page.component? child = some component ∧ component.parent = some parent

/-- The components of a page form a tree with the page's own component as its root. -/
structure IsTree (page : PageState) : Prop where
  root : ∃ own, page.component? page.id = some own ∧ own.parent = none
  /-- Every other component has a parent, and occurs once in that parent's list and in
  no other one. -/
  hangs : ∀ id component, page.component? id = some component → id ≠ page.id →
    ∃ parent above, component.parent = some parent ∧ page.component? parent = some above ∧
      above.children.count id = 1 ∧
      ∀ other elsewhere, page.component? other = some elsewhere → id ∈ elsewhere.children →
        other = parent
  listed : ∀ id component child, page.component? id = some component →
    child ∈ component.children →
      ∃ below, page.component? child = some below ∧ below.parent = some id
  reaches : ∀ id component, page.component? id = some component →
    Relation.ReflTransGen page.HangsIn id page.id
  numbered : ∀ id component, page.component? id = some component → id ≠ page.id →
    ∃ number < page.nextComponent, id = numberedId page.id number

/-- A page whose components are in order. Every component but the page's own hangs in
the page's own or in one with a smaller number, which rules out cycles. -/
structure Intact (page : PageState) : Prop where
  alive : page.isDestroyed = false
  root : ∃ own, page.component? page.id = some own ∧ own.parent = none
  named : ∀ {id component}, page.component? id = some component → component.id = id
  numbered : ∀ {id component}, page.component? id = some component → id ≠ page.id →
    ∃ number < page.nextComponent, id = numberedId page.id number
  hangs : ∀ {id component}, page.component? id = some component → id ≠ page.id →
    ∃ parent above, component.parent = some parent ∧ page.component? parent = some above ∧
      above.children.count id = 1
  ordered : ∀ {number component parent},
    page.component? (numberedId page.id number) = some component →
    component.parent = some parent →
      parent = page.id ∨ ∃ earlier < number, parent = numberedId page.id earlier
  listed : ∀ {id component child}, page.component? id = some component →
    child ∈ component.children →
      ∃ below, page.component? child = some below ∧ below.parent = some id

namespace Intact

variable {page : PageState}

/-- Ids that have not been drawn yet name no component. -/
theorem fresh (intact : page.Intact) {number : Nat} (notDrawn : page.nextComponent ≤ number) :
    page.component? (numberedId page.id number) = none := by
  cases found : page.component? (numberedId page.id number) with
  | none => rfl
  | some component =>
      obtain ⟨drawn, below, same⟩ := intact.numbered found (numberedId_ne_page _ _)
      have isDrawn : number = drawn := numberedId_inj.mp same
      omega

theorem nextId_fresh (intact : page.Intact) : page.component? page.nextId = none := by
  rw [nextId_eq]
  exact intact.fresh (Nat.le_refl _)

theorem ne_nextId_of_found (intact : page.Intact) {id : String} {component : Component}
    (found : page.component? id = some component) : id ≠ page.nextId := by
  intro isNext
  rw [isNext, intact.nextId_fresh] at found
  cases found

theorem parent_of_page (intact : page.Intact) {own : Component}
    (found : page.component? page.id = some own) : own.parent = none := by
  obtain ⟨other, isOther, noParent⟩ := intact.root
  rw [found] at isOther
  cases isOther
  exact noParent

theorem ne_page_of_hangsIn (intact : page.Intact) {child parent : String}
    (hangs : page.HangsIn child parent) : child ≠ page.id := by
  intro isPage
  obtain ⟨component, found, hasParent⟩ := hangs
  rw [isPage] at found
  rw [intact.parent_of_page found] at hasParent
  cases hasParent

/-- What a component hangs in is there, and lists it. -/
theorem above_of_hangsIn (intact : page.Intact) {child parent : String}
    (hangs : page.HangsIn child parent) :
    ∃ above, page.component? parent = some above ∧ child ∈ above.children := by
  have notPage := intact.ne_page_of_hangsIn hangs
  obtain ⟨component, found, hasParent⟩ := hangs
  obtain ⟨place, above, isPlace, foundAbove, once⟩ := intact.hangs found notPage
  rw [hasParent] at isPlace
  cases isPlace
  exact ⟨above, foundAbove, List.count_pos_iff.mp (by omega)⟩

/-- A component that hangs in another one is a different one. -/
theorem ne_of_hangsIn (intact : page.Intact) {child parent : String}
    (hangs : page.HangsIn child parent) : child ≠ parent := by
  intro same
  have notPage := intact.ne_page_of_hangsIn hangs
  obtain ⟨component, found, hasParent⟩ := hangs
  obtain ⟨number, -, isNumbered⟩ := intact.numbered found notPage
  rw [isNumbered] at found
  rcases intact.ordered found hasParent with isPage | ⟨earlier, before, isEarlier⟩
  · exact notPage (same.trans isPage)
  · have sameNumber : number = earlier := numberedId_inj.mp (by rw [← isNumbered, same, isEarlier])
    omega

/-- From every component there is a way up to the page's own. -/
theorem reaches (intact : page.Intact) {id : String} {component : Component}
    (found : page.component? id = some component) :
    Relation.ReflTransGen page.HangsIn id page.id := by
  by_cases isPage : id = page.id
  · rw [isPage]
  · obtain ⟨number, -, rfl⟩ := intact.numbered found isPage
    -- Parents have smaller numbers, so that the way up ends.
    induction number using Nat.strongRecOn generalizing component with
    | ind number inductionHypothesis =>
        obtain ⟨parent, above, hasParent, foundAbove, -⟩ := intact.hangs found isPage
        have hangs : page.HangsIn (numberedId page.id number) parent :=
          ⟨component, found, hasParent⟩
        rcases intact.ordered found hasParent with rfl | ⟨earlier, before, rfl⟩
        · exact .single hangs
        · exact .head hangs
            (inductionHypothesis earlier before foundAbove (numberedId_ne_page _ _))

theorem isTree (intact : page.Intact) : page.IsTree where
  root := intact.root
  hangs := by
    intro id component found notPage
    obtain ⟨parent, above, hasParent, foundAbove, once⟩ := intact.hangs found notPage
    refine ⟨parent, above, hasParent, foundAbove, once, ?_⟩
    intro other elsewhere foundOther member
    obtain ⟨below, foundBelow, pointsBack⟩ := intact.listed foundOther member
    rw [found] at foundBelow
    cases foundBelow
    rw [hasParent] at pointsBack
    exact (Option.some.inj pointsBack).symm
  listed := fun _ _ _ found member => intact.listed found member
  reaches := fun _ _ found => intact.reaches found
  numbered := fun _ _ found notPage => intact.numbered found notPage

end Intact

/-! ## Changes that keep the tree -/

/-- What is left of a page: some of its components, all of which hang where they hung, and
list those of their children that are left. -/
structure Leaves (page rest : PageState) : Prop where
  alive : rest.isDestroyed = false
  id_eq : rest.id = page.id
  counter_le : page.nextComponent ≤ rest.nextComponent
  root : ∃ own, rest.component? page.id = some own
  original : ∀ {id left}, rest.component? id = some left →
    ∃ original, page.component? id = some original ∧ left.id = original.id ∧
      left.parent = original.parent ∧
      (∀ child ∈ left.children, child ∈ original.children ∧
        ∃ below, rest.component? child = some below) ∧
      ∀ child below, rest.component? child = some below →
        left.children.count child = original.children.count child
  parent : ∀ {id left parent}, rest.component? id = some left → left.parent = some parent →
    ∃ above, rest.component? parent = some above

/-- What is left of an intact page is intact. -/
theorem Intact.leaves {page rest : PageState} (intact : page.Intact) (leaves : page.Leaves rest) :
    rest.Intact := by
  refine ⟨leaves.alive, ?_, ?_, ?_, ?_, ?_, ?_⟩
  · obtain ⟨own, foundOwn⟩ := leaves.root
    obtain ⟨original, foundOriginal, -, parent_eq, -⟩ := leaves.original foundOwn
    rw [leaves.id_eq]
    exact ⟨own, foundOwn, parent_eq.trans (intact.parent_of_page foundOriginal)⟩
  · intro id left found
    obtain ⟨original, foundOriginal, id_eq, -⟩ := leaves.original found
    exact id_eq.trans (intact.named foundOriginal)
  · intro id left found notPage
    obtain ⟨original, foundOriginal, -⟩ := leaves.original found
    rw [leaves.id_eq] at notPage ⊢
    obtain ⟨number, below, isNumbered⟩ := intact.numbered foundOriginal notPage
    exact ⟨number, Nat.lt_of_lt_of_le below leaves.counter_le, isNumbered⟩
  · intro id left found notPage
    obtain ⟨original, foundOriginal, -, parent_eq, -⟩ := leaves.original found
    rw [leaves.id_eq] at notPage
    obtain ⟨parent, above, hasParent, foundAbove, once⟩ := intact.hangs foundOriginal notPage
    obtain ⟨leftAbove, foundLeft⟩ := leaves.parent found (parent_eq.trans hasParent)
    obtain ⟨aboveToo, foundToo, -, -, -, sameCount⟩ := leaves.original foundLeft
    rw [foundAbove] at foundToo
    cases foundToo
    exact ⟨parent, leftAbove, parent_eq.trans hasParent, foundLeft,
      (sameCount id left found).trans once⟩
  · intro number left parent found hasParent
    rw [leaves.id_eq] at found ⊢
    obtain ⟨original, foundOriginal, -, parent_eq, -⟩ := leaves.original found
    exact intact.ordered foundOriginal (parent_eq.symm.trans hasParent)
  · intro id left child found member
    obtain ⟨original, foundOriginal, -, -, listed, -⟩ := leaves.original found
    obtain ⟨wasListed, below, foundBelow⟩ := listed child member
    obtain ⟨originalBelow, foundToo, pointsBack⟩ := intact.listed foundOriginal wasListed
    obtain ⟨belowToo, foundBelowToo, -, parent_eq, -⟩ := leaves.original foundBelow
    rw [foundToo] at foundBelowToo
    cases foundBelowToo
    exact ⟨below, foundBelow, parent_eq.trans pointsBack⟩

namespace Intact

variable {page : PageState}

/-- What matters for the tree is only the page's id, its components and the numbers drawn. -/
theorem of_same {other : PageState} (intact : page.Intact) (sameId : other.id = page.id)
    (sameComponents : other.components = page.components)
    (notFewer : page.nextComponent ≤ other.nextComponent)
    (alive : other.isDestroyed = false) : other.Intact := by
  have sameLookUp : ∀ id, other.component? id = page.component? id := by
    intro id
    rw [component?, component?, sameComponents]
  refine intact.leaves ⟨alive, sameId, notFewer, ?_, ?_, ?_⟩
  · obtain ⟨own, foundOwn, -⟩ := intact.root
    exact ⟨own, (sameLookUp _).trans foundOwn⟩
  · intro id component found
    rw [sameLookUp] at found
    refine ⟨component, found, rfl, rfl, ?_, fun _ _ _ => rfl⟩
    intro child member
    obtain ⟨below, foundBelow, -⟩ := intact.listed found member
    exact ⟨member, below, (sameLookUp _).trans foundBelow⟩
  · intro id component parent found hasParent
    rw [sameLookUp] at found
    obtain ⟨above, foundAbove, -⟩ := intact.above_of_hangsIn ⟨component, found, hasParent⟩
    exact ⟨above, (sameLookUp _).trans foundAbove⟩

theorem drawId (intact : page.Intact) : page.drawId.Intact :=
  intact.of_same rfl rfl (Nat.le_succ _) intact.alive

end Intact

/-- Puts another component in the place of one. -/
def replace (page : PageState) (id : String) (component : Component) : PageState :=
  { page with components := page.components.insert id component }

theorem component?_replace (page : PageState) (id other : String) (component : Component) :
    (page.replace id component).component? other =
      if other = id then some component else page.component? other :=
  Dict.get?_insert _ _ _ _

/-- A component may change in everything but its id, its parent and its children. -/
theorem Intact.replace {page : PageState} (intact : page.Intact) {id : String}
    {before after : Component} (found : page.component? id = some before)
    (sameId : after.id = before.id) (sameParent : after.parent = before.parent)
    (sameChildren : after.children = before.children) : (page.replace id after).Intact := by
  have stays : ∀ {other original}, page.component? other = some original →
      ∃ component, (page.replace id after).component? other = some component := by
    intro other original foundOther
    rw [component?_replace]
    split
    · exact ⟨after, rfl⟩
    · exact ⟨original, foundOther⟩
  -- Every component of the changed page is one of the page before in these respects.
  have backward : ∀ {other component}, (page.replace id after).component? other = some component →
      ∃ original, page.component? other = some original ∧ component.id = original.id ∧
        component.parent = original.parent ∧ component.children = original.children := by
    intro other component foundOther
    rw [component?_replace] at foundOther
    by_cases isChanged : other = id
    · rw [if_pos isChanged] at foundOther
      cases foundOther
      exact ⟨before, isChanged ▸ found, sameId, sameParent, sameChildren⟩
    · rw [if_neg isChanged] at foundOther
      exact ⟨component, foundOther, rfl, rfl, rfl⟩
  refine intact.leaves ⟨intact.alive, rfl, Nat.le_refl _, ?_, ?_, ?_⟩
  · obtain ⟨own, foundOwn, -⟩ := intact.root
    exact stays foundOwn
  · intro other component foundOther
    obtain ⟨original, foundOriginal, id_eq, parent_eq, children_eq⟩ := backward foundOther
    refine ⟨original, foundOriginal, id_eq, parent_eq, ?_, fun _ _ _ => by rw [children_eq]⟩
    intro child member
    rw [children_eq] at member
    obtain ⟨below, foundBelow, -⟩ := intact.listed foundOriginal member
    exact ⟨member, stays foundBelow⟩
  · intro other component parent foundOther hasParent
    obtain ⟨original, foundOriginal, -, parent_eq, -⟩ := backward foundOther
    obtain ⟨above, foundAbove, -⟩ :=
      intact.above_of_hangsIn ⟨original, foundOriginal, parent_eq.symm.trans hasParent⟩
    exact stays foundAbove

theorem setProperty_eq_ok_iff {page next : PageState} {target name : String} {value : Property}
    {emitted : List Emission} :
    page.setProperty target name value = .ok (next, emitted) ↔
      page.isDestroyed = false ∧ ∃ component, page.component? target = some component ∧
        next = page.replace target (component.setProperty name value) ∧
        emitted = page.emit ⟨updateFunction, some target, [.str name, value.toJson]⟩ := by
  unfold setProperty
  cases page.isDestroyed with
  | true => simp
  | false =>
      cases found : page.component? target with
      | none => simp
      | some component =>
          have changed : page.modifyComponent target
                (fun component => component.setProperty name value) =
              page.replace target (component.setProperty name value) := by
            have present : page.components.get? target = some component := found
            simp only [modifyComponent, replace, Dict.modify, present]
          simp [changed, eq_comm]

/-! ## Attaching -/

/-- The page with a component as the last child of another one. -/
def attached (page : PageState) (parent : String) (above component : Component) : PageState :=
  let linked := page.components.insert parent (above.addChild component.id)
  { page with components := linked.insert component.id (component.under parent) }

theorem attach_eq_ok_iff {page next : PageState} {parent : String} {component : Component}
    {emitted : List Emission} :
    page.attach parent component = .ok (next, emitted) ↔
      page.isDestroyed = false ∧ ∃ above, page.component? parent = some above ∧
        next = page.attached parent above component ∧
        emitted = page.emit (.onClient createFunction
          [.str parent, (component.under parent).payload]) := by
  unfold attach
  cases alive : page.isDestroyed with
  | true => simp
  | false =>
      cases page.component? parent with
      | none => simp
      | some above => simp [attached, Component.under, alive, eq_comm]

theorem component?_attached (page : PageState) (parent id : String)
    (above component : Component) :
    (page.attached parent above component).component? id =
      if id = component.id then some (component.under parent)
      else if id = parent then some (above.addChild component.id)
      else page.component? id := by
  unfold attached component?
  rw [Dict.get?_insert, Dict.get?_insert]

section Attached

variable {page : PageState} {parent : String} {above component : Component}

theorem component?_attached_self :
    (page.attached parent above component).component? component.id =
      some (component.under parent) := by
  rw [component?_attached, if_pos rfl]

/-- A component of the page before is still there, with one more child if it is the parent. -/
theorem component?_attached_of_found (foundAbove : page.component? parent = some above)
    {id : String} {present : Component} (notNew : id ≠ component.id)
    (found : page.component? id = some present) :
    (page.drawId.attached parent above component).component? id =
      some (present.adopting (id = parent) component.id) := by
  rw [component?_attached, if_neg notNew, Component.adopting]
  by_cases isParent : id = parent
  · rw [isParent, foundAbove] at found
    cases found
    rw [if_pos isParent, if_pos isParent]
  · rw [if_neg isParent, if_neg isParent]
    exact found

/-- Every component is the new one, or one of the page before with one more child if it is
the parent. -/
theorem component?_attached_cases (foundAbove : page.component? parent = some above)
    {id : String} {changed : Component}
    (found : (page.drawId.attached parent above component).component? id = some changed) :
    id = component.id ∧ changed = component.under parent ∨
      id ≠ component.id ∧ ∃ present, page.component? id = some present ∧
        changed = present.adopting (id = parent) component.id := by
  by_cases isNew : id = component.id
  · rw [isNew, component?_attached_self] at found
    exact Or.inl ⟨isNew, (Option.some.inj found).symm⟩
  · refine Or.inr ⟨isNew, ?_⟩
    rw [component?_attached, if_neg isNew] at found
    by_cases isParent : id = parent
    · rw [if_pos isParent] at found
      cases found
      exact ⟨above, isParent ▸ foundAbove, (if_pos isParent).symm⟩
    · rw [if_neg isParent] at found
      exact ⟨changed, found, (if_neg isParent).symm⟩

/-- Everyone but the new component has the parent that it had. -/
theorem map_parent_attached (foundAbove : page.component? parent = some above) {id : String}
    (notNew : id ≠ component.id) :
    ((page.drawId.attached parent above component).component? id).map Component.parent =
      (page.component? id).map Component.parent := by
  rw [component?_attached, if_neg notNew]
  by_cases isParent : id = parent
  · rw [if_pos isParent, isParent, foundAbove]
    rfl
  · rw [if_neg isParent]
    rfl

/-- A page with the next component attached is intact. -/
theorem Intact.attached (intact : page.Intact) (foundAbove : page.component? parent = some above)
    (isNext : component.id = page.nextId) (noChildren : component.children = []) :
    (page.drawId.attached parent above component).Intact := by
  have notNew : ∀ {id present}, page.component? id = some present → id ≠ component.id := by
    intro id present found
    rw [isNext]
    exact intact.ne_nextId_of_found found
  have keeps : ∀ {id present}, page.component? id = some present →
      (page.drawId.attached parent above component).component? id =
        some (present.adopting (id = parent) component.id) :=
    fun found => component?_attached_of_found foundAbove (notNew found) found
  have newId : component.id = numberedId page.id page.nextComponent := isNext.trans (nextId_eq page)
  refine ⟨intact.alive, ?_, ?_, ?_, ?_, ?_, ?_⟩
  · obtain ⟨own, foundOwn, noParent⟩ := intact.root
    exact ⟨_, keeps foundOwn, (Component.adopting_parent ..).trans noParent⟩
  · intro id changed found
    rcases component?_attached_cases foundAbove found with ⟨isNew, rfl⟩ | ⟨-, present, foundPresent, rfl⟩
    · exact isNew.symm
    · exact (Component.adopting_id ..).trans (intact.named foundPresent)
  · intro id changed found notPage
    rcases component?_attached_cases foundAbove found with ⟨isNew, -⟩ | ⟨-, present, foundPresent, -⟩
    · exact ⟨page.nextComponent, Nat.lt_succ_self _, isNew.trans newId⟩
    · obtain ⟨number, below, isNumbered⟩ := intact.numbered foundPresent notPage
      exact ⟨number, Nat.lt_succ_of_lt below, isNumbered⟩
  · intro id changed found notPage
    rcases component?_attached_cases foundAbove found with ⟨isNew, rfl⟩ | ⟨isOld, present, foundPresent, rfl⟩
    · -- The new id is in no list of the page before, as lists name present components.
      have notListed : component.id ∉ above.children := by
        intro member
        obtain ⟨below, foundBelow, -⟩ := intact.listed foundAbove member
        exact notNew foundBelow rfl
      refine ⟨parent, _, rfl, keeps foundAbove, ?_⟩
      rw [isNew, Component.count_adopting_self rfl notListed]
    · obtain ⟨grand, elder, hasParent, foundElder, once⟩ := intact.hangs foundPresent notPage
      refine ⟨grand, _, (Component.adopting_parent ..).trans hasParent, keeps foundElder, ?_⟩
      rw [Component.count_adopting_of_ne isOld, once]
  · intro number changed place found hasParent
    rcases component?_attached_cases foundAbove found with ⟨isNew, rfl⟩ | ⟨-, present, foundPresent, rfl⟩
    · cases hasParent
      have isNextNumber : number = page.nextComponent :=
        numberedId_inj.mp (isNew.trans newId)
      by_cases isPage : parent = page.id
      · exact Or.inl isPage
      · obtain ⟨earlier, below, isEarlier⟩ := intact.numbered foundAbove isPage
        exact Or.inr ⟨earlier, isNextNumber ▸ below, isEarlier⟩
    · exact intact.ordered foundPresent ((Component.adopting_parent ..).symm.trans hasParent)
  · intro id changed child found member
    rcases component?_attached_cases foundAbove found with ⟨-, rfl⟩ | ⟨-, present, foundPresent, rfl⟩
    · have impossible : child ∈ component.children := member
      rw [noChildren] at impossible
      cases impossible
    · rcases Component.mem_children_adopting.mp member with memberBefore | ⟨isParent, isNewChild⟩
      · obtain ⟨below, foundBelow, pointsBack⟩ := intact.listed foundPresent memberBefore
        exact ⟨_, keeps foundBelow, (Component.adopting_parent ..).trans pointsBack⟩
      · rw [isParent, isNewChild]
        exact ⟨component.under parent, component?_attached_self, rfl⟩

end Attached

end PageState

end LivePage
