import LivePage.Console.Declared

/-!
Contract: commands to a cache of blueprints and to the files behind it.

Owns:
- the commands and what each answers;
- the numbers by which blueprints are told apart in the answers.

Does not own: the rules of the cache.
-/

namespace LivePage.Console

open Json (nat optionalText ofFields)

/-- A cache with its files, and the serial numbers of the blueprints in the
order in which they were first shown. -/
structure CacheConsole where
  files : FileSystem
  cache : BlueprintCache
  shown : List Nat
deriving Inhabited

namespace CacheConsole

/-- Shows a blueprint by the number it was first shown under. -/
def reveal (console : CacheConsole) (shared : SharedBlueprint) : CacheConsole × Json :=
  let shown :=
    if console.shown.contains shared.serial then console.shown
    else console.shown ++ [shared.serial]
  ({ console with shown := shown }, ofFields [
    ("definition", nat (shown.idxOf shared.serial)),
    ("elements", nat shared.blueprint.tree.size),
    ("url", optionalText (shared.blueprint.url.map Url.text))])

/-- The path text of a name below the root of the pages. -/
def below (console : CacheConsole) (name : String) : String :=
  Path.text console.cache.locator.root ++ "/" ++ name

def fileContent : Json → List UInt8
  | .str text => Text.encodeUtf8 text
  | parts => declaredBytes parts

def report (report : PrecompileReport) : Json :=
  ofFields [("compiled", nat report.compiled), ("failed", nat report.failed)]

/-- Carries out a command; `call` names it, and a name that is not known shows
the cache. -/
def command (console : CacheConsole) (step : Json) : CacheConsole × Json :=
  let key := step.textAt "key"
  match step.textAt "call" with
  | "get" =>
      match console.cache.get console.files key with
      | (cache, .ok shared) => { console with cache := cache }.reveal shared
      | (cache, .error error) => ({ console with cache := cache }, cacheFailure error)
  | "is_cached" => (console, .bool (console.cache.isCached console.files key))
  | "remove" =>
      match console.cache.remove console.files key with
      | (cache, some shared) => { console with cache := cache }.reveal shared
      | (cache, none) => ({ console with cache := cache }, .null)
  | "clear" => ({ console with cache := console.cache.clear }, nat console.cache.clear.size)
  | "add_precompile" =>
      let (cache, accepted) := console.cache.addPrecompile key
      ({ console with cache := cache }, .bool accepted)
  | "ready" =>
      let (cache, outcome) := console.cache.precompile console.files
      ({ console with cache := cache }, report outcome)
  | "write" =>
      let path := console.below (step.textAt "path")
      ({ console with files := console.files.write path (fileContent (step.part "content")) },
        .str "ok")
  | "delete" =>
      let (files, deleted) := console.files.delete (console.below (step.textAt "path"))
      ({ console with files := files }, .bool deleted)
  | _ =>
      (console, ofFields [
        ("len", nat console.cache.size), ("empty", .bool console.cache.isEmpty),
        ("root", .str console.cache.locator.root.text)])

end CacheConsole

end LivePage.Console
