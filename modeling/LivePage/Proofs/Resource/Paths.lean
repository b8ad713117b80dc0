import LivePage.Resource.Store

/-!
Contract: paths of generated content and the places that they lead to.

Owns:
- the ids that pages have;
- a path is taken apart exactly where it is a page's path of a name of one line;
- the names whose paths lead back to them, of which every text is the path of one;
- no two texts lead to the same place.

Does not own: which resources are kept.
-/

namespace LivePage.Resource

/-- An id that pages have: it is there, and no slash ends it early. -/
def IsPageId (page : String) : Prop :=
  page ≠ "" ∧ '/' ∉ page.toList

instance (page : String) : Decidable (IsPageId page) :=
  inferInstanceAs (Decidable (_ ∧ _))

theorem toList_path_some (page name : String) :
    (path (some page) name).toList =
      pagePrefix.toList ++ (page.toList ++ '/' :: name.toList) := by
  simp [path]

/-- The paths that are taken apart are those of names of one line below a page. -/
theorem splitPath?_eq_some_iff {text page name : String} :
    splitPath? text = some (page, name) ↔
      IsPageId page ∧ '\n' ∉ name.toList ∧ text = path (some page) name := by
  constructor
  · intro split
    unfold splitPath? at split
    cases behind : Text.afterWord? pagePrefix.toList text.toList with
    | none => simp [behind] at split
    | some rest =>
        cases cut : Text.cutAt? (· == '/') rest with
        | none => simp [behind, cut] at split
        | some parts =>
            obtain ⟨isRest, noSlash⟩ := Text.cutAt?_beq_eq_some_iff.mp cut
            simp only [behind, cut, Option.ite_none_left_eq_some, Bool.or_eq_true, not_or,
              Bool.not_eq_true, Option.some.injEq, Prod.mk.injEq] at split
            obtain ⟨⟨notEmpty, oneLine⟩, rfl, rfl⟩ := split
            refine ⟨⟨by simpa using notEmpty, by simpa using noSlash⟩, by simpa using oneLine,
              String.toList_injective ?_⟩
            rw [toList_path_some, Text.afterWord?_eq_some behind, isRest]
            simp
  · rintro ⟨⟨notEmpty, noSlash⟩, oneLine, rfl⟩
    have cut : Text.cutAt? (· == '/') (page.toList ++ '/' :: name.toList) =
        some (page.toList, name.toList) := Text.cutAt?_beq_eq_some_iff.mpr ⟨rfl, noSlash⟩
    have isPage : page.toList.isEmpty = false := by simpa using notEmpty
    simp [splitPath?, toList_path_some, Text.afterWord?_append, cut, isPage, oneLine]

/-- A text that is no page's path of a name of one line is a name of its own. -/
theorem splitPath?_eq_none_iff {text : String} :
    splitPath? text = none ↔
      ∀ page name, IsPageId page → '\n' ∉ name.toList → text ≠ path (some page) name := by
  rw [Option.eq_none_iff_forall_not_mem]
  constructor
  · intro none page name isId oneLine isPath
    exact none (page, name) (splitPath?_eq_some_iff.mpr ⟨isId, oneLine, isPath⟩)
  · rintro other ⟨page, name⟩ split
    obtain ⟨isId, oneLine, isPath⟩ := splitPath?_eq_some_iff.mp split
    exact other page name isId oneLine isPath

/-- The namespace of a page's resources, or of those without a page. -/
def spaceOf (page : Option String) : String :=
  page.getD globalNamespace

/-- Pages and no page have a namespace each. -/
theorem spaceOf_injective {page other : Option String} (isId : ∀ id ∈ page, IsPageId id)
    (otherIsId : ∀ id ∈ other, IsPageId id) (same : spaceOf page = spaceOf other) :
    page = other := by
  cases page with
  | none =>
      cases other with
      | none => rfl
      | some id => exact absurd same.symm (otherIsId id rfl).1
  | some id =>
      cases other with
      | none => exact absurd same (isId id rfl).1
      | some otherId => exact congrArg some same

/-- The names whose paths lead back to them: below a page those of one line, and without a page
those that are not the path of such a name. -/
def LeadsBack (page : Option String) (name : String) : Prop :=
  match page with
  | some _ => '\n' ∉ name.toList
  | none => ∀ other below, IsPageId other → '\n' ∉ below.toList → name ≠ path (some other) below

theorem place_path_of_leadsBack {page : Option String} {name : String}
    (isId : ∀ id ∈ page, IsPageId id) (leadsBack : LeadsBack page name) :
    place (path page name) = (spaceOf page, name) := by
  unfold place
  cases page with
  | none =>
      rw [path, splitPath?_eq_none_iff.mpr leadsBack]
      rfl
  | some id =>
      rw [splitPath?_eq_some_iff.mpr ⟨isId id rfl, leadsBack, rfl⟩]
      rfl

/-- Every text is the path of a name that it leads back to. -/
theorem exists_owner (text : String) :
    ∃ page name, (∀ id ∈ page, IsPageId id) ∧ LeadsBack page name ∧ path page name = text := by
  cases split : splitPath? text with
  | none => exact ⟨none, text, by simp, splitPath?_eq_none_iff.mp split, rfl⟩
  | some parts =>
      obtain ⟨isId, oneLine, isPath⟩ := splitPath?_eq_some_iff.mp split
      exact ⟨some parts.1, parts.2, by simpa using isId, oneLine, isPath.symm⟩

theorem place_injective {text other : String} (same : place text = place other) :
    text = other := by
  obtain ⟨page, name, isId, leadsBack, rfl⟩ := exists_owner text
  obtain ⟨otherPage, otherName, otherIsId, otherLeadsBack, rfl⟩ := exists_owner other
  rw [place_path_of_leadsBack isId leadsBack,
    place_path_of_leadsBack otherIsId otherLeadsBack, Prod.mk.injEq] at same
  obtain ⟨sameSpace, rfl⟩ := same
  rw [spaceOf_injective isId otherIsId sameSpace]

theorem path_injective {page : Option String} {name other : String}
    (same : path page name = path page other) : name = other := by
  cases page with
  | none => exact same
  | some id =>
      have sameText := congrArg String.toList same
      rw [toList_path_some, toList_path_some] at sameText
      exact String.toList_injective (by simpa using sameText)

/-- The path of a name that it does not lead back to belongs to a name elsewhere. -/
theorem exists_owner_elsewhere {page : Option String} {name : String}
    (isId : ∀ id ∈ page, IsPageId id) (notBack : ¬LeadsBack page name) :
    ∃ other below, (∀ id ∈ other, IsPageId id) ∧ LeadsBack other below ∧
      path other below = path page name ∧ spaceOf other ≠ spaceOf page := by
  obtain ⟨other, below, otherIsId, leadsBack, samePath⟩ := exists_owner (path page name)
  refine ⟨other, below, otherIsId, leadsBack, samePath, fun sameSpace => notBack ?_⟩
  obtain rfl := spaceOf_injective otherIsId isId sameSpace
  exact path_injective samePath ▸ leadsBack

end LivePage.Resource
