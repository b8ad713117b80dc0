import LivePage.Page.Store

/-!
Contract: the pages that a server registers.

Owns:
- pages after one of them was changed, registered, bound or ended;
- registries of live pages, which claims and ends do not spoil.

Does not own: which session claims or ends a page.
-/

namespace LivePage

theorem Page.isDestroyed_destroy (page : Page) : page.destroy.state.isDestroyed = true := by
  unfold Page.destroy
  split
  · next isDestroyed => exact isDestroyed
  · next isAlive =>
      show page.state.destroy.isDestroyed = true
      unfold PageState.destroy
      rw [if_neg isAlive]

theorem Page.id_destroy (page : Page) : page.destroy.id = page.id := by
  unfold Page.destroy
  split
  · rfl
  · show page.state.destroy.id = page.state.id
    unfold PageState.destroy
    split <;> rfl

/-- A page that ends goes nowhere from then on. -/
theorem Page.sink_destroy (page : Page)
    (ended : page.state.isDestroyed = true → page.state.sink = none) :
    page.destroy.state.sink = none := by
  unfold Page.destroy
  split
  · next isDestroyed => exact ended isDestroyed
  · next isAlive =>
      show page.state.destroy.sink = none
      unfold PageState.destroy
      rw [if_neg isAlive]

namespace PageStore

variable {store : PageStore}

/-! ## Pages after a change -/

theorem page_modify (store : PageStore) (number other : Nat) (change : Page → Page) :
    (store.modify number change).page other =
      if other = number ∧ number < store.pages.size then change (store.page number)
      else store.page other := by
  unfold page modify
  rw [Array.getElem?_modify]
  by_cases same : other = number
  · subst same
    by_cases known : other < store.pages.size
    · simp [known]
    · simp [known]
  · simp [same, Ne.symm same]

theorem modify_eq_put (store : PageStore) (number : Nat) (change : Page → Page) :
    store.modify number change = store.put number (change (store.page number)) := by
  have same : store.pages.modify number change =
      store.pages.modify number (fun _ => change (store.page number)) := by
    apply Array.ext
    · simp
    · intro index _ known
      simp only [Array.getElem_modify]
      split
      · next isNumber =>
          subst isNumber
          simp [page, (Array.size_modify ▸ known : number < store.pages.size)]
      · rfl
  simp [modify, put, same]

theorem page_put (store : PageStore) (number other : Nat) (live : Page) :
    (store.put number live).page other =
      if other = number ∧ number < store.pages.size then live else store.page other :=
  page_modify store number other (fun _ => live)

/-! ## Registries of live pages -/

/-- The registered pages go by the ids that they are registered under, and none has ended. -/
def IsLive (store : PageStore) : Prop :=
  ∀ id page, store.get? id = some page →
    page < store.pages.size ∧ (store.page page).id = id ∧
      (store.page page).state.isDestroyed = false

/-- A page that was made. Once it has ended, it goes nowhere. -/
def Holds (store : PageStore) (page : Nat) : Prop :=
  page < store.pages.size ∧
    ((store.page page).state.isDestroyed = true → (store.page page).state.sink = none)

theorem isLive_empty : empty.IsLive :=
  fun _ _ isRegistered => nomatch isRegistered

theorem IsLive.holds (isLive : store.IsLive) {id : String} {page : Nat}
    (isRegistered : store.get? id = some page) : store.Holds page := by
  obtain ⟨known, -, isAlive⟩ := isLive id page isRegistered
  exact ⟨known, fun isDestroyed => nomatch isAlive.symm.trans isDestroyed⟩

theorem page_register (store : PageStore) (fresh : Page) (page : Nat) :
    (store.register fresh).page page =
      if page = store.pages.size then fresh else store.page page := by
  simp only [register, PageStore.page, Array.getElem?_push]
  split <;> rfl

theorem get?_register (store : PageStore) (fresh : Page) (id : String) :
    (store.register fresh).get? id =
      if id = fresh.id then some store.pages.size else store.get? id :=
  Dict.get?_insert store.registered fresh.id id store.pages.size

theorem size_register (store : PageStore) (fresh : Page) :
    (store.register fresh).pages.size = store.pages.size + 1 := by
  simp [register]

theorem IsLive.register (isLive : store.IsLive) {fresh : Page}
    (isAlive : fresh.state.isDestroyed = false) : (store.register fresh).IsLive := by
  intro id page isRegistered
  rw [get?_register] at isRegistered
  rw [page_register, size_register]
  split at isRegistered
  · next isFresh =>
      cases isRegistered
      rw [if_pos rfl]
      exact ⟨Nat.lt_succ_self _, isFresh.symm, isAlive⟩
  · obtain ⟨known, others⟩ := isLive id page isRegistered
    rw [if_neg (Nat.ne_of_lt known)]
    exact ⟨Nat.lt_succ_of_lt known, others⟩

theorem Holds.register {page : Nat} (holds : store.Holds page) (fresh : Page) :
    (store.register fresh).Holds page := by
  unfold Holds
  rw [page_register, size_register, if_neg (Nat.ne_of_lt holds.1)]
  exact ⟨Nat.lt_succ_of_lt holds.1, holds.2⟩

/-! ## Claims -/

/-- Gives a page another sink. -/
def bind (store : PageStore) (page : Nat) (sink : Sink) : PageStore :=
  store.modify page (fun claimed => claimed.withState (claimed.state.bind sink))

theorem page_bind (store : PageStore) (page other : Nat) (sink : Sink) :
    (store.bind page sink).page other =
      if other = page ∧ page < store.pages.size then
        (store.page page).withState ((store.page page).state.bind sink)
      else store.page other :=
  page_modify store page other _

theorem size_bind (store : PageStore) (page : Nat) (sink : Sink) :
    (store.bind page sink).pages.size = store.pages.size :=
  Array.size_modify

theorem IsLive.bind (isLive : store.IsLive) (page : Nat) (sink : Sink) :
    (store.bind page sink).IsLive := by
  intro id other isRegistered
  obtain ⟨known, isId, isAlive⟩ := isLive id other isRegistered
  rw [page_bind, size_bind]
  refine ⟨known, ?_⟩
  split
  · next same =>
      rw [same.1] at isId isAlive
      exact ⟨isId, isAlive⟩
  · exact ⟨isId, isAlive⟩

/-- A registered page has not ended, so that its new sink is no sink of an ended page. -/
theorem Holds.bind {page : Nat} (holds : store.Holds page) (isLive : store.IsLive) {id : String}
    {claimed : Nat} (isRegistered : store.get? id = some claimed) (sink : Sink) :
    (store.bind claimed sink).Holds page := by
  obtain ⟨-, -, isAlive⟩ := isLive id claimed isRegistered
  unfold Holds
  rw [page_bind, size_bind]
  refine ⟨holds.1, ?_⟩
  split
  · intro isDestroyed
    exact nomatch isAlive.symm.trans isDestroyed
  · exact holds.2

/-! ## Ends -/

/-- Ends a page and frees its id. -/
def release (store : PageStore) (page : Nat) : PageStore :=
  (store.modify page Page.destroy).unregister (store.page page).id

theorem page_release (store : PageStore) (page other : Nat) :
    (store.release page).page other =
      if other = page ∧ page < store.pages.size then (store.page page).destroy
      else store.page other :=
  page_modify store page other Page.destroy

theorem size_release (store : PageStore) (page : Nat) :
    (store.release page).pages.size = store.pages.size :=
  Array.size_modify

theorem get?_release (store : PageStore) (page : Nat) (id : String) :
    (store.release page).get? id =
      if id = (store.page page).id then none else store.get? id :=
  Dict.get?_erase store.registered (store.page page).id id

theorem IsLive.release (isLive : store.IsLive) (page : Nat) : (store.release page).IsLive := by
  intro id other isRegistered
  rw [get?_release] at isRegistered
  split at isRegistered
  · cases isRegistered
  · next otherId =>
      obtain ⟨known, isId, isAlive⟩ := isLive id other isRegistered
      have different : other ≠ page := by
        rintro rfl
        exact otherId isId.symm
      rw [page_release, size_release, if_neg (fun same => different same.1)]
      exact ⟨known, isId, isAlive⟩

theorem Holds.release {page : Nat} (holds : store.Holds page) (ended : Nat) :
    (store.release ended).Holds page := by
  unfold Holds
  rw [page_release, size_release]
  refine ⟨holds.1, ?_⟩
  split
  · next same => exact fun _ => Page.sink_destroy _ (same.1 ▸ holds.2)
  · exact holds.2

/-- A page that ends is not registered any more. -/
theorem IsLive.not_registered_release (isLive : store.IsLive) {page : Nat}
    (known : page < store.pages.size) (id : String) :
    (store.release page).get? id ≠ some page := by
  intro isRegistered
  obtain ⟨-, -, isAlive⟩ := isLive.release page id page isRegistered
  rw [page_release, if_pos ⟨rfl, known⟩, Page.isDestroyed_destroy] at isAlive
  cases isAlive

end PageStore

end LivePage
