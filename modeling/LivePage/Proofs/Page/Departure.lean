import LivePage.Proofs.Page.Registry

/-!
Contract: pages that are gone for good.

Owns:
- registries that file their pages by their own ids, also pages that ended by themselves;
- pages that have ended and that no id leads to: no claim, end or new page brings them back.

Does not own: which session a page ends with.
-/

namespace LivePage

namespace PageStore

variable {store : PageStore} {page : Nat}

/-- The registered pages go by the ids that they are registered under, even if they have ended. -/
def Filed (store : PageStore) : Prop :=
  ∀ id page, store.get? id = some page → page < store.pages.size ∧ (store.page page).id = id

/-- A page that has ended, and that no id leads to. -/
structure Gone (store : PageStore) (page : Nat) : Prop where
  known : page < store.pages.size
  isDestroyed : (store.page page).state.isDestroyed = true
  isFree : ∀ id, store.get? id ≠ some page

/-- Pages later on. -/
structure Lasts (before after : PageStore) : Prop where
  size : before.pages.size ≤ after.pages.size
  filed : before.Filed → after.Filed
  gone : ∀ page, before.Gone page → after.Gone page

theorem filed_empty : empty.Filed := by
  intro id page isRegistered
  cases isRegistered

theorem Lasts.refl (store : PageStore) : store.Lasts store :=
  ⟨Nat.le_refl _, id, fun _ => id⟩

theorem Lasts.trans {first second third : PageStore} (before : first.Lasts second)
    (after : second.Lasts third) : first.Lasts third :=
  ⟨Nat.le_trans before.size after.size, after.filed ∘ before.filed,
    fun page gone => after.gone page (before.gone page gone)⟩

/-! ## Other states of pages -/

/-- A page keeps its id, and does not come back after its end. -/
theorem lasts_put {live : Page} (sameId : live.id = (store.page page).id)
    (ended : (store.page page).state.isDestroyed = true → live.state.isDestroyed = true) :
    store.Lasts (store.put page live) where
  size := Nat.le_of_eq Array.size_modify.symm
  filed filed id other isRegistered := by
    obtain ⟨known, isId⟩ := filed id other isRegistered
    refine ⟨Array.size_modify.symm ▸ known, ?_⟩
    rw [page_put]
    split
    · next same => rw [sameId, ← same.1, isId]
    · exact isId
  gone other gone := by
    refine ⟨Array.size_modify.symm ▸ gone.known, ?_, gone.isFree⟩
    rw [page_put]
    split
    · next same => exact ended (same.1 ▸ gone.isDestroyed)
    · exact gone.isDestroyed

theorem lasts_modify {change : Page → Page}
    (sameId : (change (store.page page)).id = (store.page page).id)
    (ended : (store.page page).state.isDestroyed = true →
      (change (store.page page)).state.isDestroyed = true) :
    store.Lasts (store.modify page change) := by
  rw [modify_eq_put]
  exact lasts_put sameId ended

theorem lasts_bind (store : PageStore) (page : Nat) (sink : Sink) :
    store.Lasts (store.bind page sink) :=
  lasts_modify rfl id

/-! ## Pages that come and go -/

theorem lasts_register (store : PageStore) (fresh : Page) : store.Lasts (store.register fresh) where
  size := by
    rw [size_register]
    exact Nat.le_succ _
  filed filed id other isRegistered := by
    rw [get?_register] at isRegistered
    rw [page_register, size_register]
    split at isRegistered
    · next isFresh =>
        cases isRegistered
        rw [if_pos rfl]
        exact ⟨Nat.lt_succ_self _, isFresh.symm⟩
    · obtain ⟨known, isId⟩ := filed id other isRegistered
      rw [if_neg (Nat.ne_of_lt known)]
      exact ⟨Nat.lt_succ_of_lt known, isId⟩
  gone page gone := by
    have different : page ≠ store.pages.size := Nat.ne_of_lt gone.known
    refine ⟨?_, ?_, fun id isRegistered => ?_⟩
    · rw [size_register]
      exact Nat.lt_succ_of_lt gone.known
    · rw [page_register, if_neg different]
      exact gone.isDestroyed
    · rw [get?_register] at isRegistered
      split at isRegistered
      · exact different (Option.some.inj isRegistered).symm
      · exact gone.isFree id isRegistered

theorem lasts_unregister (store : PageStore) (id : String) : store.Lasts (store.unregister id) := by
  have wasRegistered {other : String} {page : Nat}
      (isRegistered : (store.unregister id).get? other = some page) :
      store.get? other = some page := by
    have erased := Dict.get?_erase store.registered id other
    rw [show (store.registered.erase id).get? other = some page from isRegistered] at erased
    split at erased
    · cases erased
    · exact erased.symm
  exact ⟨Nat.le_refl _,
    fun filed other page isRegistered => filed other page (wasRegistered isRegistered),
    fun _ gone => ⟨gone.known, gone.isDestroyed,
      fun other isRegistered => gone.isFree other (wasRegistered isRegistered)⟩⟩

theorem lasts_release (store : PageStore) (page : Nat) : store.Lasts (store.release page) :=
  (lasts_modify (Page.id_destroy _) (fun _ => Page.isDestroyed_destroy _)).trans
    (lasts_unregister _ _)

/-- A page that is released is gone. -/
theorem Filed.gone_release (filed : store.Filed) (known : page < store.pages.size) :
    (store.release page).Gone page where
  known := (size_release store page).symm ▸ known
  isDestroyed := by
    rw [page_release, if_pos ⟨rfl, known⟩]
    exact Page.isDestroyed_destroy _
  isFree id isRegistered := by
    rw [get?_release] at isRegistered
    split at isRegistered
    · cases isRegistered
    · next otherId => exact otherId (filed id page isRegistered).2.symm

end PageStore

end LivePage
