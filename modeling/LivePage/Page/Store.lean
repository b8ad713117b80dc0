import LivePage.Page.Reaction

/-!
Contract: the live pages of a server.

Owns:
- the pages made so far, by number, and those registered by id;
- the removal of pages that nobody claimed in time.

Does not own: who claims a page.
-/

namespace LivePage

/-- Pages by number, and the numbers of the registered ones by id. A page
stays what it is after its id was given to another one. -/
structure PageStore where
  pages : Array Page
  registered : Dict Nat
deriving Inhabited

namespace PageStore

def empty : PageStore := ⟨#[], .empty⟩

/-- The number of registered pages. -/
def size (store : PageStore) : Nat :=
  store.registered.size

def isEmpty (store : PageStore) : Bool :=
  store.registered.isEmpty

def page (store : PageStore) (number : Nat) : Page :=
  store.pages[number]?.getD default

def put (store : PageStore) (number : Nat) (page : Page) : PageStore :=
  { store with pages := store.pages.modify number (fun _ => page) }

def modify (store : PageStore) (number : Nat) (change : Page → Page) : PageStore :=
  { store with pages := store.pages.modify number change }

/-- Adds a page and registers it under its id. Its number is that of the
pages before. -/
def register (store : PageStore) (page : Page) : PageStore :=
  ⟨store.pages.push page, store.registered.insert page.id store.pages.size⟩

/-- The number of the page registered under an id. -/
def get? (store : PageStore) (id : String) : Option Nat :=
  store.registered.get? id

def unregister (store : PageStore) (id : String) : PageStore :=
  { store with registered := store.registered.erase id }

/-- Whether a page is unclaimed and has reached an age, in seconds. -/
def isStale (maxAge now : Nat) (page : Page) : Bool :=
  !page.state.isBound && !page.state.isInitialized && decide (maxAge ≤ now - page.state.createdAt)

/-- The registered pages that are stale. -/
def stale (store : PageStore) (maxAge now : Nat) : List (String × Nat) :=
  store.registered.toList.filter (fun entry => isStale maxAge now (store.page entry.2))

/-- Destroys and unregisters the stale pages, and says how many there were. -/
def reap (store : PageStore) (maxAge now : Nat) : PageStore × Nat :=
  let stale := store.stale maxAge now
  (stale.foldl (fun store entry =>
    (store.unregister entry.1).modify entry.2 Page.destroy) store, stale.length)

end PageStore

end LivePage
