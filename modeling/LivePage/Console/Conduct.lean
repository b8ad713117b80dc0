import LivePage.Console.Journal

/-!
Contract: request handlers and listeners declared by what they do.

Owns:
- the conduct of a declared list of actions;
- the answers of a declared lifecycle listener.

Does not own: the effect of each act.
-/

namespace LivePage.Console

open Json (optionalText optionalHex)

def requestFailure (error : RequestError) : Json :=
  let kind :=
    match error with
    | .missingParameter _ => "MissingParameter"
    | .invalidParameter _ _ => "InvalidParameter"
    | .noPage _ => "NoPage"
  failure kind error.message

/-- Reading a value as the type of a name. -/
def readAs (typeName : String) (value : Json) : Except Json.Mismatch Json :=
  match typeName with
  | "i64" => value.asInt64.map .int
  | "u8" => value.asNat8.map .int
  | "bool" => value.asFlag.map .bool
  | "strings" => value.asTexts.map Json.strings
  | "map" => value.asObject.map .obj
  | _ => value.asText.map .str

/-- Acts on the page of the session, or fails without one. -/
def withPage (request : Request) (act : Conduct) : Conduct :=
  .look (fun view =>
    if view.page.isSome then act else .fail (RequestError.noPage request.sessionId).chain)

/-- An optional parameter, or what is wrong with it. -/
def paramRecord (request : Request) (key typeName : String) : Json :=
  match request.param (readAs typeName) key with
  | .ok (some value) => value
  | .ok none => .null
  | .error error => requestFailure error

def pageRecord (request : Request) (view : RequestView) : Json :=
  match view.page with
  | some page => .arr [.str "page", .str page]
  | none => requestFailure (.noPage request.sessionId)

def debugRecord (request : Request) (view : RequestView) : Json :=
  .arr [.str "debug", .str request.inspection,
    .str (Session.inspection request.sessionId view.phase)]

/-- What one action does before the rest. -/
def declaredAct (request : Request) (next : Conduct) (action : Json) : Conduct :=
  let word := action.item 0
  let key := (action.item 1).textOf
  match word.textOf with
  | "param" =>
      .note (.arr [word, .str key, paramRecord request key (action.item 2).textOf]) next
  | "required" =>
      match request.required (readAs (action.item 2).textOf) key with
      | .ok value => .note (.arr [word, .str key, value]) next
      | .error error => .fail error.chain
  | "get" =>
      .note (.arr [word, .str key, (request.get? key).getD .null,
        optionalText (request.text? key), optionalHex request.envelope.blob]) next
  | "context" => .look (fun view => .note (currentRecord view.current) next)
  | "reenter" => .reenter next
  | "page" => .look (fun view => .note (pageRecord request view) next)
  | "queue" => withPage request (.queueEvent ⟨key, (action.item 2).textOf, action.item 3, none⟩ next)
  | "invoke" =>
      withPage request
        (.invoke ⟨(action.item 2).textOf, (action.item 1).text?, (action.item 3).itemsOf⟩ next)
  | "sync" =>
      match key with
      | "start" => .startQueueing next
      | "stop" => .stopQueueing next
      | _ => .clearQueued next
  | "destroy" => .destroySession next
  | "debug" => .look (fun view => .note (debugRecord request view) next)
  | "fail" => .fail ((action.itemsOf.drop 1).map Json.textOf).reverse
  | _ => next

/-- A handler declared by its actions, of which a failing one ends the list. -/
def declaredConduct (actions : List Json) (request : Request) : Conduct :=
  actions.foldr (fun action next => declaredAct request next action) .done

/-- An answer of a lifecycle listener by its declaration. -/
def declaredOutcome (text : String) : LifecycleOutcome :=
  match Text.cutText? ':' text with
  | some ("veto", reason) => .vetoed reason
  | some ("fail", reason) => .failed reason
  | _ => .accepted

/-- A lifecycle listener declared by its first answers. -/
def declaredLifecycle (number : Nat) (step : Json) : LifecycleListener where
  number := number
  name := step.textAt "name"
  respond := fun event count =>
    let field :=
      match event with
      | .created => "create"
      | .destroyed => "destroy"
    declaredOutcome ((step.textsAt field)[count]?.getD "ok")
  created := 0
  destroyed := 0

end LivePage.Console
