import LivePage.Proofs.Resource.Paths

/-!
Contract: a store of generated content is one map for each page, and one without a page.

Owns:
- the calls to a store, and sequences of them in any order;
- what becomes of the resource of a page and a name, read off the calls alone;
- a path gives what was last registered under it, exactly for the names whose paths lead
  back to them.

Does not own: when a page ends.
-/

namespace LivePage

open Resource

/-- Something asked of a store that changes it. -/
inductive ResourceCall where
  | register (page : Option String) (name : String) (resource : Resource)
  | unregister (path : String)
  | dropNamespace (space : String)

namespace ResourceCall

/-- Whether a call names a page by an id that pages have, if it registers for a page. -/
def NamesPage : ResourceCall → Prop
  | .register page _ _ => ∀ id ∈ page, IsPageId id
  | .unregister _ => True
  | .dropNamespace _ => True

/-- Whether a call is about the resource of a page and a name: it registers another one in its
place, takes its path back or drops all of its page. -/
def IsAbout (page : Option String) (name : String) : ResourceCall → Prop
  | .register other below _ => other = page ∧ below = name
  | .unregister text => text = path page name
  | .dropNamespace space => space = spaceOf page

instance (page : Option String) (name : String) :
    (call : ResourceCall) → Decidable (call.IsAbout page name)
  | .register other below _ => inferInstanceAs (Decidable (other = page ∧ below = name))
  | .unregister text => inferInstanceAs (Decidable (text = path page name))
  | .dropNamespace space => inferInstanceAs (Decidable (space = spaceOf page))

/-- The resource that a call leaves where it is about. -/
def given? : ResourceCall → Option Resource
  | .register _ _ resource => some resource
  | .unregister _ => none
  | .dropNamespace _ => none

/-- The resource of a page and a name after a call, given the one before. -/
def leave (page : Option String) (name : String) (before : Option Resource)
    (call : ResourceCall) : Option Resource :=
  if call.IsAbout page name then call.given? else before

theorem leave_of_not_isAbout {page : Option String} {name : String} {call : ResourceCall}
    (aside : ¬call.IsAbout page name) (before : Option Resource) :
    call.leave page name before = before :=
  if_neg aside

end ResourceCall

namespace ResourceStore

/-- The store after a call. -/
def perform (store : ResourceStore) : ResourceCall → ResourceStore
  | .register page name resource => (store.register page name resource).1
  | .unregister path => store.unregister path
  | .dropNamespace space => (store.dropNamespace space).1

def performAll (store : ResourceStore) (calls : List ResourceCall) : ResourceStore :=
  calls.foldl perform store

/-! ## Look-ups -/

variable (store : ResourceStore)

theorem get?_eq (text : String) :
    store.get? text = (store.within (place text).1).get? (place text).2 :=
  rfl

theorem within_register (page : Option String) (name : String) (resource : Resource)
    (space : String) :
    (store.register page name resource).1.within space =
      if space = spaceOf page then (store.within space).insert name resource
      else store.within space := by
  have kept : (store.register page name resource).1.namespaces =
      store.namespaces.insert (spaceOf page) ((store.within (spaceOf page)).insert name resource) :=
    rfl
  rw [within, kept, Dict.get?_insert]
  split
  · next same =>
      rw [same]
      rfl
  · rfl

theorem within_unregister (path space : String) :
    (store.unregister path).within space =
      if space = (place path).1 then (store.within space).erase (place path).2
      else store.within space := by
  rw [within, unregister, Dict.get?_modify]
  split
  · next same =>
      rw [same, within]
      cases store.namespaces.get? (place path).1 <;> rfl
  · rfl

theorem within_dropNamespace (space other : String) :
    (store.dropNamespace space).1.within other =
      if other = space then .empty else store.within other := by
  rw [within, dropNamespace, Dict.get?_erase]
  split <;> rfl

theorem get?_register (page : Option String) (name : String) (resource : Resource)
    (text : String) :
    (store.register page name resource).1.get? text =
      if place text = (spaceOf page, name) then some resource else store.get? text := by
  rw [get?_eq, within_register, get?_eq]
  by_cases sameSpace : (place text).1 = spaceOf page
  · simp [Prod.ext_iff, sameSpace, Dict.get?_insert]
  · simp [Prod.ext_iff, sameSpace]

theorem get?_unregister (path text : String) :
    (store.unregister path).get? text = if text = path then none else store.get? text := by
  have samePlace : text = path ↔ place text = place path :=
    ⟨congrArg place, place_injective⟩
  rw [get?_eq, within_unregister, get?_eq]
  by_cases sameSpace : (place text).1 = (place path).1
  · simp [samePlace, Prod.ext_iff, sameSpace, Dict.get?_erase]
  · simp [samePlace, Prod.ext_iff, sameSpace]

theorem get?_dropNamespace (space text : String) :
    (store.dropNamespace space).1.get? text =
      if (place text).1 = space then none else store.get? text := by
  rw [get?_eq, within_dropNamespace, get?_eq]
  split <;> rfl

/-! ## Names whose paths lead back -/

section LeadsBack

variable {page : Option String} {name : String} (isId : ∀ id ∈ page, IsPageId id)
  (leadsBack : LeadsBack page name)

include isId leadsBack

/-- One call does to the resource of a page and a name what it says. -/
theorem get?_perform {call : ResourceCall} (namesPage : call.NamesPage) :
    (store.perform call).get? (path page name) =
      call.leave page name (store.get? (path page name)) := by
  have leads := place_path_of_leadsBack isId leadsBack
  cases call with
  | register other below resource =>
      have same : (spaceOf page, name) = (spaceOf other, below) ↔ other = page ∧ below = name := by
        rw [Prod.mk.injEq]
        refine and_congr ⟨fun sameSpace => ?_, fun same => same ▸ rfl⟩ eq_comm
        exact (spaceOf_injective isId namesPage sameSpace).symm
      rw [perform, get?_register, leads]
      simp only [same]
      rfl
  | unregister text =>
      rw [perform, get?_unregister]
      simp only [eq_comm]
      rfl
  | dropNamespace space =>
      rw [perform, get?_dropNamespace, leads]
      simp only [eq_comm]
      rfl

theorem get?_performAll {calls : List ResourceCall} (namePages : ∀ call ∈ calls, call.NamesPage) :
    (store.performAll calls).get? (path page name) =
      calls.foldl (ResourceCall.leave page name) (store.get? (path page name)) := by
  induction calls generalizing store with
  | nil => rfl
  | cons call rest inductionHypothesis =>
      obtain ⟨ofFirst, ofRest⟩ := List.forall_mem_cons.mp namePages
      rw [List.foldl_cons, ← get?_perform store isId leadsBack ofFirst]
      exact inductionHypothesis (store.perform call) ofRest

end LeadsBack

/-- What calls that are not about a page and a name leave of their resource. -/
theorem foldl_leave_of_not_isAbout {page : Option String} {name : String}
    {calls : List ResourceCall} (aside : ∀ call ∈ calls, ¬call.IsAbout page name)
    (before : Option Resource) :
    calls.foldl (ResourceCall.leave page name) before = before := by
  induction calls with
  | nil => rfl
  | cons call rest inductionHypothesis =>
      obtain ⟨ofFirst, ofRest⟩ := List.forall_mem_cons.mp aside
      rw [List.foldl_cons, ResourceCall.leave_of_not_isAbout ofFirst, inductionHypothesis ofRest]

/-- Generated content is a map for each page, and one more without a page. The path that a
resource is registered under gives that resource until another one is registered for the same
page and name, the path is taken back or all of the page is dropped, and no other call changes
what the path gives. This holds of the names whose paths lead back to them, that is, of all but
names of several lines below a page and names that are such a path themselves. A path that does
not lead back is the path of a name elsewhere, and what it gives is not what was registered. -/
theorem resources_resolve_by_path {page : Option String} {name : String}
    (isId : ∀ id ∈ page, IsPageId id) (store : ResourceStore) (resource : Resource) :
    let registered := store.register page name resource
    (LeadsBack page name →
      registered.1.get? registered.2 = some resource ∧
      (∀ later : List ResourceCall, (∀ call ∈ later, call.NamesPage) →
        (registered.1.performAll later).get? registered.2 =
            later.foldl (ResourceCall.leave page name) (some resource) ∧
          ((∀ call ∈ later, ¬call.IsAbout page name) →
            (registered.1.performAll later).get? registered.2 = some resource)) ∧
      ∀ call : ResourceCall, call.NamesPage → ¬call.IsAbout page name →
        (store.perform call).get? registered.2 = store.get? registered.2) ∧
    (¬LeadsBack page name →
      registered.1.get? registered.2 = store.get? registered.2 ∧
      ∃ other below, (∀ id ∈ other, IsPageId id) ∧ LeadsBack other below ∧
        registered.2 = path other below ∧ spaceOf other ≠ spaceOf page) := by
  intro registered
  refine ⟨fun leadsBack => ?_, fun notBack => ?_⟩
  · have here : registered.1.get? registered.2 = some resource := by
      have leads := place_path_of_leadsBack isId leadsBack
      exact (get?_register store page name resource _).trans (if_pos leads)
    refine ⟨here, fun later namePages => ?_, fun call namesPage aside => ?_⟩
    · have after := get?_performAll registered.1 isId leadsBack namePages
      rw [show registered.1.get? (path page name) = some resource from here] at after
      exact ⟨after, fun aside => after.trans (foldl_leave_of_not_isAbout aside _)⟩
    · exact (get?_perform store isId leadsBack namesPage).trans
        (ResourceCall.leave_of_not_isAbout aside _)
  · obtain ⟨other, below, otherIsId, leadsBack, samePath, elsewhere⟩ :=
      exists_owner_elsewhere isId notBack
    refine ⟨?_, other, below, otherIsId, leadsBack, samePath.symm, elsewhere⟩
    have leads : place (path page name) = (spaceOf other, below) :=
      samePath ▸ place_path_of_leadsBack otherIsId leadsBack
    refine (get?_register store page name resource _).trans (if_neg fun same => elsewhere ?_)
    exact congrArg Prod.fst (leads.symm.trans same)

/-- A picture below a page, while other pages come and go and a style sheet is taken back. -/
theorem picture_resolves_by_path :
    let picture : Resource := ⟨"image/png", [1, 2, 3]⟩
    let registered := ResourceStore.empty.register (some "p1") "img/logo.png" picture
    let later : List ResourceCall := [.register (some "p2") "img/logo.png" ⟨"image/png", []⟩,
      .register none "img/logo.png" ⟨"image/png", [4]⟩, .unregister "_fujion_p2/img/logo.png",
      .dropNamespace "p2", .unregister "img/logo.png"]
    IsPageId "p1" ∧ LeadsBack (some "p1") "img/logo.png" ∧
      registered.2 = "_fujion_p1/img/logo.png" ∧
      (registered.1.performAll later).get? "_fujion_p1/img/logo.png" = some picture := by
  intro picture registered later
  have isId : ∀ id ∈ some "p1", IsPageId id := by
    rintro id ⟨⟩
    decide
  have leadsBack : LeadsBack (some "p1") "img/logo.png" := by
    show '\n' ∉ "img/logo.png".toList
    decide
  obtain ⟨ofBack, -⟩ := resources_resolve_by_path isId ResourceStore.empty picture
  refine ⟨isId "p1" rfl, leadsBack, rfl, ?_⟩
  have namePages : ∀ call ∈ later, call.NamesPage := by
    simp [later, ResourceCall.NamesPage, IsPageId]
  have aside : ∀ call ∈ later, ¬call.IsAbout (some "p1") "img/logo.png" := by
    simp [later, ResourceCall.IsAbout, path, pagePrefix, spaceOf]
  exact ((ofBack leadsBack).2.1 later namePages).2 aside

/-- A name of two lines below a page is not found under its path, and a name without a page may
have the path of a page's resource. -/
theorem name_of_two_lines_is_not_found :
    let hello : Resource := ⟨"text/plain", [104, 105]⟩
    let other : Resource := ⟨"text/plain", [106]⟩
    let twoLines := ResourceStore.empty.register (some "p") "a\nb" hello
    let ofPage := ResourceStore.empty.register (some "p") "x" hello
    let ofNone := ofPage.1.register none "_fujion_p/x" other
    IsPageId "p" ∧ twoLines.1.get? twoLines.2 = none ∧
      ofNone.2 = ofPage.2 ∧ ofNone.1.get? ofNone.2 = some hello := by
  decide +kernel

end ResourceStore

end LivePage
