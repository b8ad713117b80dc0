import LivePage.Dict
import LivePage.Resource.Sha256
import LivePage.Text.Bytes
import LivePage.Text.Cut

/-!
Contract: generated content that a server offers beside its pages.

Owns:
- resources with their entity tags;
- the paths of resources that belong to a page and of those that belong to none;
- the store, which drops all resources of a page at once.

Does not own: when a page ends, and how content is asked for.
-/

namespace LivePage

structure Resource where
  contentType : String
  body : List UInt8
deriving DecidableEq, Repr, Inhabited

namespace Resource

/-- The digest of the content, between double quotes: equal content has equal tags. -/
def etag (resource : Resource) : String :=
  "\"" ++ Text.hexText (Sha256.digest resource.body) ++ "\""

/-- What the path of a page's resource begins with. -/
def pagePrefix : String := "_fujion_"

/-- The path of a resource: its name, below its page if it has one. -/
def path (page : Option String) (name : String) : String :=
  match page with
  | some page => pagePrefix ++ page ++ "/" ++ name
  | none => name

/-- The page and the name in a path, if it is the path of a page's resource.
The page ends at the first slash and is not empty; a name of several lines is
not one. -/
def splitPath? (path : String) : Option (String × String) :=
  match Text.afterWord? pagePrefix.toList path.toList with
  | none => none
  | some rest =>
      match Text.cutAt? (· == '/') rest with
      | none => none
      | some (page, name) =>
          if page.isEmpty || name.contains '\n' then none
          else some (String.ofList page, String.ofList name)

/-- The namespace of resources without a page. -/
def globalNamespace : String := ""

/-- The namespace and the name that a path leads to. -/
def place (path : String) : String × String :=
  (splitPath? path).getD (globalNamespace, path)

end Resource

/-- Resources by namespace and name. A namespace is the id of a page. -/
structure ResourceStore where
  namespaces : Dict (Dict Resource)
deriving Inhabited

namespace ResourceStore

def empty : ResourceStore := ⟨.empty⟩

/-- The resources of a namespace. -/
def within (store : ResourceStore) (space : String) : Dict Resource :=
  (store.namespaces.get? space).getD .empty

/-- Keeps a resource, and says under which path. -/
def register (store : ResourceStore) (page : Option String) (name : String)
    (resource : Resource) : ResourceStore × String :=
  let space := page.getD Resource.globalNamespace
  (⟨store.namespaces.insert space ((store.within space).insert name resource)⟩,
    Resource.path page name)

def get? (store : ResourceStore) (path : String) : Option Resource :=
  let (space, name) := Resource.place path
  (store.within space).get? name

/-- Removes a resource. Its namespace stays, even without resources. -/
def unregister (store : ResourceStore) (path : String) : ResourceStore :=
  let (space, name) := Resource.place path
  ⟨store.namespaces.modify space (fun resources => resources.erase name)⟩

/-- Drops a namespace, and says how many resources it had. -/
def dropNamespace (store : ResourceStore) (space : String) : ResourceStore × Nat :=
  (⟨store.namespaces.erase space⟩, (store.within space).size)

/-- The number of namespaces. -/
def size (store : ResourceStore) : Nat :=
  store.namespaces.size

end ResourceStore

end LivePage
