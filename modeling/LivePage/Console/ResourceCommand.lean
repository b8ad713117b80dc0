import LivePage.Console.Declared
import LivePage.Resource.Store

/-!
Contract: commands to a store of generated content.

Owns:
- the commands and what each answers.

Does not own: the rules of the store.
-/

namespace LivePage.Console

open Json (nat ofFields)

def resource (shown : Resource) : Json :=
  ofFields [("type", .str shown.contentType), ("body", .str (Text.hexText shown.body)),
    ("etag", .str shown.etag)]

/-- Carries out a command on a store; a name that is not known counts its namespaces. -/
def resourceCommand (store : ResourceStore) (step : Json) : ResourceStore × Json :=
  let path := step.textAt "path"
  let found := (store.get? path).elim .null resource
  match step.textAt "call" with
  | "register" =>
      let added : Resource := ⟨step.textAt "type", declaredBytes (step.part "body")⟩
      let (next, place) := store.register (step.textAt? "page") (step.textAt "name") added
      (next, ofFields [("etag", .str added.etag), ("path", .str place)])
  | "get" => (store, found)
  | "unregister" => (store.unregister path, found)
  | "destroy" =>
      let (next, count) := store.dropNamespace (step.textAt "page")
      (next, nat count)
  | "split" =>
      (store, (Resource.splitPath? path).elim .null
        (fun parts => .arr [.str parts.1, .str parts.2]))
  | _ => (store, nat store.size)

end LivePage.Console
