import LivePage.Proofs.Blueprint.Handlers
import LivePage.Proofs.Page.Growth
import LivePage.Proofs.Page.Sprouting

/-!
Contract: what a making adds to a page.

Owns:
- the elements of a tree that give components, in document order, and their ids;
- making succeeds exactly if every property among the attributes has a typed value;
- if so, the new components stand to each other as their elements do, below the given
  parent, and the rest of the page stays.

Does not own: what a failure leaves behind.
-/

namespace LivePage

open PageTree

namespace PageTree

variable {tree : PageTree}

/-! ## Elements that give components -/

/-- Every property among the attributes of all elements has a typed value. -/
def Coerces (tree : PageTree) : Prop :=
  ∀ number, root < number → number < tree.size → (tree.element number).Coerces

/-- The elements that give components, in document order: all but the root, and but
top-level `page` elements if these set up the page. -/
def giving (tree : PageTree) (intoPage : Bool) : List Nat :=
  (tree.descendants root).filter (fun number => number ≠ root ∧
    ¬(intoPage = true ∧ number ∈ (tree.element root).children ∧
      (tree.element number).tag = Definition.pageTag))

/-- The id of the component of an element, counted from what a page draws next. -/
def idOf (tree : PageTree) (page : PageState) (intoPage : Bool) (number : Nat) : String :=
  numberedId page.id (page.nextComponent + (tree.giving intoPage).idxOf number)

theorem mem_giving_iff (linked : tree.Linked) {intoPage : Bool} {number : Nat} :
    number ∈ tree.giving intoPage ↔ root < number ∧ number < tree.size ∧
      ¬(intoPage = true ∧ number ∈ (tree.element root).children ∧
        (tree.element number).tag = Definition.pageTag) := by
  rw [giving, List.mem_filter, linked.descendants_root, linked.mem_subtree_root_iff,
    decide_eq_true_iff]
  constructor
  · rintro ⟨inside, notRoot, gives⟩
    exact ⟨Nat.pos_iff_ne_zero.mpr notRoot, inside, gives⟩
  · rintro ⟨notRoot, inside, gives⟩
    exact ⟨inside, Nat.pos_iff_ne_zero.mp notRoot, gives⟩

theorem nodup_giving (linked : tree.Linked) (intoPage : Bool) : (tree.giving intoPage).Nodup := by
  rw [giving, linked.descendants_root]
  exact (linked.nodup_subtree linked.nonempty).filter _

/-- What gives components are the uppermost such elements with all below them. -/
theorem giving_eq (linked : tree.Linked) (intoPage : Bool) :
    tree.giving intoPage = (tree.tops intoPage).flatMap tree.subtree := by
  have below_top : ∀ {number}, number ∈ (tree.element root).children →
      ∀ other ∈ (tree.element number).children.flatMap tree.subtree,
        other ≠ root ∧ other ∉ (tree.element root).children := by
    intro number isTop other member
    obtain ⟨child, isChild, inChild⟩ := List.mem_flatMap.mp member
    obtain ⟨later, childInside, -⟩ := linked.listed isChild
    have bounds := linked.bounds_of_mem_subtree childInside inChild
    refine ⟨Nat.pos_iff_ne_zero.mp (show 0 < other by omega), ?_⟩
    intro isOtherTop
    have inNumber : other ∈ tree.subtree number := by
      rw [linked.subtree_eq number]
      exact List.mem_cons_of_mem _ member
    have same := linked.eq_of_mem_subtrees isOtherTop isTop (linked.mem_subtree_self other) inNumber
    omega
  unfold giving tops
  rw [linked.descendants_root, linked.subtree_eq root, List.filter_cons_of_neg (by simp),
    List.filter_flatMap, List.flatMap_assoc]
  apply List.flatMap_congr
  intro number isTop
  obtain ⟨later, -, -⟩ := linked.listed isTop
  have notRoot : number ≠ root := Nat.pos_iff_ne_zero.mp later
  rw [linked.subtree_eq number]
  have keepsBelow : ((tree.element number).children.flatMap tree.subtree).filter
      (fun number => decide (number ≠ root ∧ ¬(intoPage = true ∧
        number ∈ (tree.element root).children ∧
          (tree.element number).tag = Definition.pageTag))) =
      (tree.element number).children.flatMap tree.subtree := by
    apply List.filter_eq_self.mpr
    intro other member
    obtain ⟨otherNotRoot, notTop⟩ := below_top isTop other member
    exact decide_eq_true ⟨otherNotRoot, fun setsUp => notTop setsUp.2.1⟩
  unfold topsOf
  by_cases setsUp : intoPage = true ∧ (tree.element number).tag = Definition.pageTag
  · rw [if_pos setsUp, List.filter_cons_of_neg, keepsBelow]
    simp [setsUp, isTop]
  · rw [if_neg setsUp, List.filter_cons_of_pos, keepsBelow, List.flatMap_singleton,
      linked.subtree_eq number]
    exact decide_eq_true ⟨notRoot, fun both => setsUp ⟨both.1, both.2.2⟩⟩

/-- The elements above the uppermost ones give no components. -/
theorem parent_of_mem_tops (linked : tree.Linked) {intoPage : Bool} {top : Nat}
    (isTop : top ∈ tree.tops intoPage) :
    top < tree.size ∧
      ∃ above, (tree.element top).parent = some above ∧ above ∉ tree.giving intoPage := by
  obtain ⟨number, isTopLevel, member⟩ := List.mem_flatMap.mp isTop
  unfold topsOf at member
  split at member
  · next setsUp =>
      obtain ⟨-, inside, isParent⟩ := linked.listed member
      refine ⟨inside, number, isParent, ?_⟩
      intro gives
      obtain ⟨-, -, notSetUp⟩ := (mem_giving_iff linked).mp gives
      exact notSetUp ⟨setsUp.1, isTopLevel, setsUp.2⟩
  · rw [List.mem_singleton.mp member]
    obtain ⟨-, inside, isParent⟩ := linked.listed isTopLevel
    refine ⟨inside, root, isParent, ?_⟩
    intro gives
    exact Nat.lt_irrefl _ ((mem_giving_iff linked).mp gives).1

/-- The ids of the elements that give components are the next ones. -/
theorem map_idOf_giving (linked : tree.Linked) (page : PageState) (intoPage : Bool) :
    (tree.giving intoPage).map (tree.idOf page intoPage) =
      (List.range' page.nextComponent (tree.giving intoPage).length).map (numberedId page.id) := by
  have distinct := nodup_giving linked intoPage
  apply List.ext_getElem (by simp)
  intro position inside _
  rw [List.length_map] at inside
  have isIndex := List.get_idxOf distinct ⟨position, inside⟩
  simp only [List.get_eq_getElem] at isIndex
  simp [idOf, isIndex]

theorem named_idOf (linked : tree.Linked) (page : PageState) (intoPage : Bool) :
    tree.Named (tree.idOf page intoPage) page (tree.tops intoPage) := by
  unfold Named
  rw [← giving_eq linked intoPage]
  exact map_idOf_giving linked page intoPage

end PageTree

namespace PageState

/-! ## What is added -/

/-- The elements of a tree have given components below a parent, and nothing else has
changed but settings of the page's own component if that is the parent. -/
structure Materialized (tree : PageTree) (intoPage : Bool) (parent : String)
    (before after : PageState) (ids : List String) : Prop where
  elements : ∀ number, number ∈ tree.giving intoPage ↔ root < number ∧ number < tree.size ∧
    ¬(intoPage = true ∧ number ∈ (tree.element root).children ∧
      (tree.element number).tag = Definition.pageTag)
  distinct : (tree.giving intoPage).Nodup
  counter_eq : after.nextComponent = before.nextComponent + (tree.giving intoPage).length
  numbered : (tree.giving intoPage).map (tree.idOf before intoPage) =
    (List.range' before.nextComponent (tree.giving intoPage).length).map (numberedId before.id)
  added : ∀ id, (before.component? id = none ∧ ∃ component, after.component? id = some component) ↔
    id ∈ (tree.giving intoPage).map (tree.idOf before intoPage)
  planted : ∀ number ∈ tree.giving intoPage,
    ∃ above, (tree.element number).parent = some above ∧
      tree.Planted (tree.idOf before intoPage) after number
        (if above ∈ tree.giving intoPage then tree.idOf before intoPage above else parent)
  returned : ids = (tree.tops intoPage).map (tree.idOf before intoPage)
  appended : ∀ original, before.component? parent = some original →
    ∃ now, after.component? parent = some now ∧ now.children = original.children ++ ids ∧
      (parent ≠ before.id → { now with children := original.children } = original) ∧
      (parent = before.id → original.SameIdentity now ∧ tree.SetUpBy original now)
  unchanged : ∀ id original, id ≠ parent → before.component? id = some original →
    after.component? id = some original

/-- What a making comes to if it succeeds. -/
theorem materialize_eq_ok_iff {page : PageState} {tree : PageTree} {parent : Option String}
    {building : Building} {ids : List String} :
    page.materialize tree parent = (building, .ok ids) ↔
      Building.buildAll tree (parent.getD page.id) (tree.element root).children ⟨page, []⟩ =
        (building, .ok ids) := by
  unfold materialize
  dsimp only
  cases Building.buildAll tree (parent.getD page.id) (tree.element root).children ⟨page, []⟩ with
  | mk last result => cases result <;> simp

section Making

variable {page : PageState} {tree : PageTree} {parent : Option String} {above : Component}

/-- If every property among the attributes has a typed value, all elements give their
components. -/
theorem exists_sprouts (intact : page.Intact) (linked : tree.Linked) (coerce : tree.Coerces)
    (found : page.component? (parent.getD page.id) = some above) {intoPage : Bool}
    (isInto : intoPage = decide (parent.getD page.id = page.id)) :
    ∃ building, page.materialize tree parent =
        (building, .ok ((tree.tops intoPage).map (tree.idOf page intoPage))) ∧
      tree.Sprouts (tree.idOf page intoPage) (parent.getD page.id) (tree.tops intoPage) page
        building.page := by
  have topsCoerce : ∀ top ∈ (tree.element root).children, ∀ other ∈ tree.subtree top,
      (tree.element other).Coerces := by
    intro top isTop other isBelow
    obtain ⟨later, topInside, -⟩ := linked.listed isTop
    have bounds := linked.bounds_of_mem_subtree topInside isBelow
    exact coerce other (by omega) bounds.2
  have named : tree.Named (tree.idOf page intoPage) page
      ((tree.element root).children.flatMap (tree.topsOf intoPage)) :=
    named_idOf linked page intoPage
  have start : (⟨page, []⟩ : Building).page.component? (parent.getD page.id) = some above := found
  obtain ⟨building, made, sprouts⟩ := Building.sprouts_buildAll linked (fun _ member => member)
    topsCoerce intact isInto start named
  exact ⟨building, materialize_eq_ok_iff.mpr made, sprouts⟩

theorem coerces_of_materialize {building : Building} {ids : List String} (linked : tree.Linked)
    (made : page.materialize tree parent = (building, .ok ids)) : tree.Coerces := by
  intro number notRoot inside
  -- Every element is below a top-level one.
  have belowRoot := linked.mem_subtree_root_iff.mpr inside
  rw [linked.subtree_eq root] at belowRoot
  have isBelow := (List.mem_cons.mp belowRoot).resolve_left (Nat.pos_iff_ne_zero.mp notRoot)
  obtain ⟨top, isTop, inTop⟩ := List.mem_flatMap.mp isBelow
  exact Building.coerces_of_buildAll (materialize_eq_ok_iff.mp made) linked top isTop number inTop

theorem materialized_of_sprouts (intact : page.Intact) (linked : tree.Linked) {place : String}
    {after : PageState} {intoPage : Bool} (found : page.component? place = some above)
    (sprouts : tree.Sprouts (tree.idOf page intoPage) place (tree.tops intoPage) page after)
    (grown : Grown tree page place after) :
    Materialized tree intoPage place page after
      ((tree.tops intoPage).map (tree.idOf page intoPage)) := by
  have giving_eq := giving_eq linked intoPage
  have named := named_idOf linked page intoPage
  -- An element that gives a component is an uppermost one, or below another such element.
  have planted : ∀ number ∈ tree.giving intoPage,
      ∃ above, (tree.element number).parent = some above ∧
        tree.Planted (tree.idOf page intoPage) after number
          (if above ∈ tree.giving intoPage then tree.idOf page intoPage above else place) := by
    intro number gives
    rw [giving_eq] at gives
    obtain ⟨top, isTop, inTop⟩ := List.mem_flatMap.mp gives
    obtain ⟨topInside, beyond, isBeyond, givesNone⟩ := parent_of_mem_tops linked isTop
    by_cases same : number = top
    · rw [same]
      refine ⟨beyond, isBeyond, ?_⟩
      rw [if_neg givesNone]
      exact sprouts.top top isTop
    · obtain ⟨enclosing, enclosingInTop, isChild⟩ :=
        linked.exists_parent_of_mem_subtree topInside inTop same
      have enclosingGives : enclosing ∈ (tree.tops intoPage).flatMap tree.subtree :=
        List.mem_flatMap.mpr ⟨top, isTop, enclosingInTop⟩
      refine ⟨enclosing, (linked.listed isChild).2.2, ?_⟩
      rw [giving_eq, if_pos enclosingGives]
      exact sprouts.below enclosing enclosingGives number isChild
  refine ⟨fun number => mem_giving_iff linked, nodup_giving linked intoPage, ?_,
    map_idOf_giving linked page intoPage, ?_, planted, rfl, ?_, ?_⟩
  · rw [sprouts.counter_eq, giving_eq]
  · intro id
    constructor
    · rintro ⟨absent, component, foundNow⟩
      by_cases listed : id ∈ (tree.giving intoPage).map (tree.idOf page intoPage)
      · exact listed
      · have notPlace : id ≠ place := by
          intro isPlace
          rw [isPlace, found] at absent
          cases absent
        rw [giving_eq] at listed
        rw [sprouts.kept id notPlace listed, absent] at foundNow
        cases foundNow
    · intro listed
      obtain ⟨number, gives, rfl⟩ := List.mem_map.mp listed
      obtain ⟨-, -, definition, component, -, foundNow, -⟩ := planted number gives
      refine ⟨?_, component, foundNow⟩
      exact intact.fresh (Nat.le_add_right _ _)
  · intro original foundOriginal
    obtain ⟨now, foundNow, children_eq, same⟩ := sprouts.around original foundOriginal
    refine ⟨now, foundNow, children_eq, same, ?_⟩
    intro isPage
    obtain ⟨component, foundComponent, kept⟩ := grown.kept place original foundOriginal
    rw [foundNow] at foundComponent
    cases foundComponent
    exact kept.own isPage
  · intro id original notPlace foundOriginal
    rw [sprouts.kept id notPlace (named.not_mem intact foundOriginal), foundOriginal]

end Making

/-- The blueprint of a page gives components exactly if every property among its attributes
has a typed value. -/
theorem materialize_of_parse {parser : PageParser} {files : FileSystem} {source : PageSource}
    {blueprint : Blueprint} (respect : parser.HandlersRespect)
    (parsed : parser.parse files source = .ok blueprint) {page : PageState}
    (arises : page.Arises) (alive : page.isDestroyed = false) {parent : Option String}
    {above : Component} (found : page.component? (parent.getD page.id) = some above) :
    ((∃ building ids, page.materialize blueprint.tree parent = (building, .ok ids)) ↔
      blueprint.tree.Coerces) ∧
    ∀ building ids, page.materialize blueprint.tree parent = (building, .ok ids) →
      Materialized blueprint.tree (parent.getD page.id = page.id) (parent.getD page.id) page
        building.page ids := by
  have linked := (PageParser.made_of_parse respect parsed).linked
  have intact := arises.sound.intact_of_alive alive
  refine ⟨⟨?_, ?_⟩, ?_⟩
  · rintro ⟨building, ids, made⟩
    exact coerces_of_materialize linked made
  · intro coerce
    obtain ⟨building, made, -⟩ := exists_sprouts intact linked coerce found rfl
    exact ⟨building, _, made⟩
  · intro building ids made
    have coerce := coerces_of_materialize linked made
    obtain ⟨other, isMade, sprouts⟩ := exists_sprouts intact linked coerce found rfl
    rw [made] at isMade
    cases isMade
    obtain ⟨last, edits, outcome⟩ := edits_materialize page blueprint.tree parent
    rcases outcome with ⟨same, succeeded⟩ | ⟨error, failed⟩
    · rw [made] at succeeded
      cases succeeded
      have start : Grown blueprint.tree page (parent.getD page.id) page := .refl intact
      exact materialized_of_sprouts intact linked found sprouts (start.edits intact edits)
    · rw [made] at failed
      cases failed

/-- The content of a `page` element stands below the page. -/
theorem page_element_is_materialized :
    ∃ blueprint building,
      (PageParser.new .core).parse .empty (.ofText
        "<fsp><page title=\"News\"><div><span visible=\"true\">hello</span></div></page></fsp>") =
        .ok blueprint ∧
      (new "p" "news" 0).materialize blueprint.tree none = (building, .ok ["p_1"]) ∧
      Materialized blueprint.tree true "p" (new "p" "news" 0) building.page ["p_1"] := by
  have isRead : (((PageParser.new .core).parse .empty (.ofText
      "<fsp><page title=\"News\"><div><span visible=\"true\">hello</span></div></page></fsp>")).toOption.map
        (fun blueprint => ((new "p" "news" 0).materialize blueprint.tree none).2.toOption)) =
        some (some ["p_1"]) := by
    decide +kernel
  obtain ⟨blueprint, isSome, hasIds⟩ := Option.map_eq_some_iff.mp isRead
  have parsed := eq_ok_of_toOption isSome
  have respect : (PageParser.new .core).HandlersRespect :=
    PageParser.handlersRespect_of_builtIn rfl
  have arises : (new "p" "news" 0).Arises := ⟨"p", "news", 0, [], rfl⟩
  obtain ⟨own, foundOwn, -⟩ := (intact_new "p" "news" 0).root
  have found : (new "p" "news" 0).component? ((none : Option String).getD "p") = some own :=
    foundOwn
  cases outcome : (new "p" "news" 0).materialize blueprint.tree none with
  | mk building result =>
      rw [outcome] at hasIds
      have isMade := eq_ok_of_toOption hasIds
      dsimp only at isMade
      rw [isMade] at outcome
      have materialized :=
        (materialize_of_parse respect parsed arises rfl found).2 building ["p_1"] outcome
      exact ⟨blueprint, building, parsed, outcome, materialized⟩

end PageState

end LivePage
