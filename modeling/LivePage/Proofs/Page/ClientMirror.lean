import LivePage.Proofs.Blueprint.Step
import LivePage.Proofs.Page.History

/-!
Contract: the client's picture of a page.

Owns:
- a client that follows the invocations of a page: new nodes below known ones, and
  properties of known ones;
- the picture of a page's components that such a client has;
- making components and setting properties keep the picture faithful, however often
  they happen.

Does not own: what is lost when components are discarded, of which clients are not told.
-/

namespace LivePage

/-! ## Maps as objects -/

namespace Dict

variable {α : Type u} {β : Type v}

/-- The same keys with other values. -/
def mapValues (change : α → β) (dict : Dict α) : Dict β where
  toList := dict.toList.map (fun entry => (entry.1, change entry.2))
  ascending := by
    apply List.pairwise_map.mpr
    exact dict.ascending

theorem get?_mapValues (change : α → β) (dict : Dict α) (key : String) :
    (dict.mapValues change).get? key = (dict.get? key).map change := by
  obtain ⟨entries, ascending⟩ := dict
  unfold get? mapValues
  dsimp only
  clear ascending
  induction entries with
  | nil => rfl
  | cons entry rest inductionHypothesis =>
      rw [List.map_cons, Entries.find?, Entries.find?, inductionHypothesis]
      split <;> rfl

theorem mapValues_insert (change : α → β) (dict : Dict α) (key : String) (value : α) :
    (dict.insert key value).mapValues change = (dict.mapValues change).insert key (change value) := by
  apply ext_get?
  intro other
  rw [get?_mapValues, get?_insert, get?_insert, get?_mapValues]
  split <;> rfl

/-- An object that was made of a map is read back as the map. -/
theorem ofList_fieldsOf_ofDict {α : Type} (value : α → Json) (dict : Dict α) :
    Dict.ofList (Json.ofDict value dict).fieldsOf = dict.mapValues value := by
  have sameEntries := Entries.ofList_of_ascending (dict.mapValues value).ascending
  unfold Dict.ofList
  congr

end Dict

/-! ## The client -/

/-- What a client knows of a component. -/
structure ClientNode where
  widgetClass : String
  parent : Option String
  children : List String
  properties : Dict Json
  events : Dict Json
  domAttributes : Dict Json
  arguments : List Json

namespace ClientNode

/-- A component as a client sees it. -/
def ofComponent (component : Component) : ClientNode where
  widgetClass := component.widgetClass
  parent := component.parent
  children := component.children
  properties := component.properties.mapValues Property.toJson
  events := component.events.mapValues (fun _ => .bool true)
  domAttributes := component.domAttributes.mapValues .str
  arguments := component.arguments

/-- The node of a new component, from the object that announces it. -/
def announced (parent : String) (payload : Json) : ClientNode where
  widgetClass := payload.textAt "wclazz"
  parent := some parent
  children := []
  properties := Dict.ofList (payload.part "props").fieldsOf
  events := Dict.ofList (payload.part "events").fieldsOf
  domAttributes := Dict.ofList (payload.part "attrs").fieldsOf
  arguments := payload.listAt "cargs"

def addChild (node : ClientNode) (child : String) : ClientNode :=
  { node with children := node.children ++ [child] }

def setProperty (node : ClientNode) (name : String) (value : Json) : ClientNode :=
  { node with properties := node.properties.insert name value }

/-- Nothing is lost between a component and its announcement. -/
theorem announced_payload {parent : String} {component : Component}
    (hangs : component.parent = some parent) (noChildren : component.children = []) :
    announced parent component.payload = ofComponent component := by
  simp only [announced, ofComponent, Component.textAt_payload_class,
    Component.part_payload_properties, Component.part_payload_events,
    Component.part_payload_attributes, Component.listAt_payload_arguments,
    Dict.ofList_fieldsOf_ofDict, hangs, noChildren]

theorem ofComponent_setProperty (component : Component) (name : String) (value : Property) :
    ofComponent (component.setProperty name value) =
      (ofComponent component).setProperty name value.toJson := by
  simp only [ofComponent, setProperty, Component.setProperty, Dict.mapValues_insert]

end ClientNode

/-- The nodes of a client by id. -/
structure Client where
  nodes : Dict ClientNode

/-- The target, the name and the value, if an invocation sets a property. -/
def Invocation.updated? (invocation : Invocation) : Option (String × String × Json) :=
  match invocation.target, invocation.arguments with
  | some target, [.str name, value] =>
      if invocation.function = PageState.updateFunction then some (target, name, value) else none
  | _, _ => none

namespace Client

/-- A client that knows nothing but the id of the page. -/
def start (page : String) : Client :=
  ⟨Dict.empty.insert page ⟨"", none, [], .empty, .empty, .empty, []⟩⟩

/-- Appends a new node to a known one. -/
def create? (client : Client) (parent : String) (payload : Json) : Option Client :=
  match client.nodes.get? parent, client.nodes.get? (payload.textAt "id") with
  | some above, none =>
      some ⟨(client.nodes.insert parent (above.addChild (payload.textAt "id"))).insert
        (payload.textAt "id") (.announced parent payload)⟩
  | _, _ => none

/-- Sets a property of a known node. -/
def update? (client : Client) (target name : String) (value : Json) : Option Client :=
  (client.nodes.get? target).map
    (fun node => ⟨client.nodes.insert target (node.setProperty name value)⟩)

/-- Follows an invocation. There is no way to follow one that names an unknown parent or
target, that creates a known node, or that does something else. -/
def receive? (client : Client) (invocation : Invocation) : Option Client :=
  match invocation.created?, invocation.updated? with
  | some (parent, payload), _ => client.create? parent payload
  | none, some (target, name, value) => client.update? target name value
  | none, none => none

/-- Follows invocations one after another. -/
def replay? (client : Client) : List Invocation → Option Client
  | [] => some client
  | invocation :: rest => (client.receive? invocation).bind (fun next => next.replay? rest)

theorem replay?_append (client : Client) (earlier later : List Invocation) :
    client.replay? (earlier ++ later) =
      (client.replay? earlier).bind (fun next => next.replay? later) := by
  induction earlier generalizing client with
  | nil => rfl
  | cons invocation rest inductionHypothesis =>
      rw [List.cons_append, replay?, replay?, Option.bind_assoc]
      simp only [inductionHypothesis]

/-! ## Faithful pictures -/

/-- A client sees every component as it is; of the page's own one it sees the place, the
children and the properties. -/
structure Mirrors (client : Client) (page : PageState) : Prop where
  node : ∀ id, id ≠ page.id →
    client.nodes.get? id = (page.component? id).map ClientNode.ofComponent
  own : ∃ node component, client.nodes.get? page.id = some node ∧
    page.component? page.id = some component ∧
    node.parent = component.parent ∧ node.children = component.children ∧
    node.properties = component.properties.mapValues Property.toJson

namespace Mirrors

variable {client : Client} {page : PageState}

theorem start (id src : String) (createdAt : Nat) :
    (Client.start id).Mirrors (PageState.new id src createdAt) where
  node := by
    intro other notPage
    have notId : other ≠ id := notPage
    simp [Client.start, PageState.component?, PageState.new, Dict.get?_insert, notId]
  own := by
    refine ⟨⟨"", none, [], .empty, .empty, .empty, []⟩, Component.bare id "page" "Page",
      ?_, ?_, rfl, rfl, rfl⟩
    · simp [Client.start, PageState.new, Dict.get?_insert]
    · simp [PageState.component?, PageState.new, Dict.get?_insert]

/-- The page matters by its id and its components only. -/
theorem of_same {other : PageState} (mirrors : client.Mirrors page) (sameId : other.id = page.id)
    (sameComponents : other.components = page.components) : client.Mirrors other := by
  have sameLookUp : ∀ id, other.component? id = page.component? id := by
    intro id
    rw [PageState.component?, PageState.component?, sameComponents]
  refine ⟨?_, ?_⟩
  · intro id notPage
    rw [sameLookUp]
    exact mirrors.node id (sameId ▸ notPage)
  · simpa only [sameLookUp, sameId] using mirrors.own

/-- There is a node for every component. -/
theorem known (mirrors : client.Mirrors page) {id : String} {component : Component}
    (found : page.component? id = some component) :
    ∃ node, client.nodes.get? id = some node ∧ node.parent = component.parent ∧
      node.children = component.children ∧
      node.properties = component.properties.mapValues Property.toJson ∧
      (id ≠ page.id → node = .ofComponent component) := by
  by_cases isPage : id = page.id
  · obtain ⟨node, own, foundNode, foundOwn, parent_eq, children_eq, properties_eq⟩ := mirrors.own
    rw [isPage, foundOwn] at found
    cases found
    exact ⟨node, isPage ▸ foundNode, parent_eq, children_eq, properties_eq,
      fun notPage => absurd isPage notPage⟩
  · have foundNode := mirrors.node id isPage
    rw [found] at foundNode
    exact ⟨.ofComponent component, foundNode, rfl, rfl, rfl, fun _ => rfl⟩

/-- The client can follow when a new component is attached. -/
theorem create (mirrors : client.Mirrors page) {place : String} {above component : Component}
    (foundAbove : page.component? place = some above)
    (isNew : page.component? component.id = none) (noChildren : component.children = []) :
    ∃ next, client.create? place (component.under place).payload = some next ∧
      next.Mirrors (page.attached place above component) := by
  obtain ⟨node, foundNode, parent_eq, children_eq, properties_eq, isNode⟩ := mirrors.known foundAbove
  have newIsNotPage : component.id ≠ page.id := by
    intro isPage
    obtain ⟨-, own, -, foundOwn, -⟩ := mirrors.own
    rw [isPage, foundOwn] at isNew
    cases isNew
  have unknown : client.nodes.get? component.id = none := by
    rw [mirrors.node _ newIsNotPage, isNew]
    rfl
  have isId : (component.under place).payload.textAt "id" = component.id :=
    Component.textAt_payload_id _
  refine ⟨⟨(client.nodes.insert place (node.addChild component.id)).insert component.id
      (.ofComponent (component.under place))⟩, ?_, ?_, ?_⟩
  · unfold create?
    rw [isId, foundNode, unknown]
    dsimp only
    have isAnnounced : ClientNode.announced place (component.under place).payload =
        .ofComponent (component.under place) := ClientNode.announced_payload rfl noChildren
    rw [isAnnounced]
  · intro id notPage
    simp only [Dict.get?_insert, PageState.component?_attached]
    by_cases isComponent : id = component.id
    · rw [if_pos isComponent, if_pos isComponent]
      rfl
    · rw [if_neg isComponent, if_neg isComponent]
      by_cases isPlace : id = place
      · rw [if_pos isPlace, if_pos isPlace, isNode (isPlace ▸ notPage)]
        rfl
      · rw [if_neg isPlace, if_neg isPlace]
        exact mirrors.node id notPage
  · have ownId : (page.attached place above component).id = page.id := rfl
    simp only [ownId, Dict.get?_insert, PageState.component?_attached, if_neg newIsNotPage.symm]
    by_cases isPlace : page.id = place
    · rw [if_pos isPlace, if_pos isPlace]
      refine ⟨_, _, rfl, rfl, parent_eq, ?_, properties_eq⟩
      simp only [ClientNode.addChild, Component.addChild, children_eq]
    · rw [if_neg isPlace, if_neg isPlace]
      exact mirrors.own

/-- The client can follow when a property changes. -/
theorem update (mirrors : client.Mirrors page) {target name : String} {value : Property}
    {before after : Component} (found : page.component? target = some before)
    (sameParent : after.parent = before.parent) (sameChildren : after.children = before.children)
    (properties_eq : after.properties = before.properties.insert name value)
    (isSet : target ≠ page.id → after = before.setProperty name value) :
    ∃ next, client.update? target name value.toJson = some next ∧
      next.Mirrors (page.replace target after) := by
  obtain ⟨node, foundNode, parent_eq, children_eq, shown, isNode⟩ := mirrors.known found
  refine ⟨⟨client.nodes.insert target (node.setProperty name value.toJson)⟩, ?_, ?_, ?_⟩
  · unfold update?
    rw [foundNode]
    rfl
  · intro id notPage
    have notOwn : id ≠ page.id := notPage
    simp only [Dict.get?_insert, PageState.component?_replace]
    by_cases isTarget : id = target
    · rw [if_pos isTarget, if_pos isTarget, isNode (isTarget ▸ notOwn), isSet (isTarget ▸ notOwn),
        Option.map_some, ClientNode.ofComponent_setProperty]
    · rw [if_neg isTarget, if_neg isTarget]
      exact mirrors.node id notOwn
  · have ownId : (page.replace target after).id = page.id := rfl
    simp only [ownId, Dict.get?_insert, PageState.component?_replace]
    by_cases isTarget : page.id = target
    · rw [if_pos isTarget, if_pos isTarget]
      refine ⟨_, _, rfl, rfl, parent_eq.trans sameParent.symm, children_eq.trans sameChildren.symm, ?_⟩
      rw [ClientNode.setProperty, shown, properties_eq, Dict.mapValues_insert]
    · rw [if_neg isTarget, if_neg isTarget]
      exact mirrors.own

/-- What the client does not see of the page's own component may change unnoticed. -/
theorem configure (mirrors : client.Mirrors page) {own changed : Component}
    (foundOwn : page.component? page.id = some own) (sameParent : changed.parent = own.parent)
    (sameChildren : changed.children = own.children)
    (sameProperties : changed.properties = own.properties) :
    client.Mirrors (page.replace page.id changed) := by
  refine ⟨?_, ?_⟩
  · intro id notPage
    have notOwn : id ≠ page.id := notPage
    rw [PageState.component?_replace, if_neg notOwn]
    exact mirrors.node id notOwn
  · obtain ⟨node, foundNode, parent_eq, children_eq, properties_eq, -⟩ := mirrors.known foundOwn
    refine ⟨node, changed, foundNode, ?_, parent_eq.trans sameParent.symm,
      children_eq.trans sameChildren.symm, ?_⟩
    · exact (PageState.component?_replace _ _ _ _).trans (if_pos rfl)
    · rw [sameProperties, properties_eq]

end Mirrors

end Client

namespace PageState

/-! ## Following a page -/

/-- A page bound to a sink goes on to another state, and whoever saw it faithfully still does
after following what was emitted. -/
structure Shows (sink : Sink) (before : PageState) (emitted : List Emission) (after : PageState) :
    Prop where
  intact : after.Intact
  bound : after.sink = some sink
  addressed : ∀ emission ∈ emitted, emission.sink = sink
  followed : ∀ client : Client, client.Mirrors before →
    ∃ next, client.replay? (emitted.map Emission.invocation) = some next ∧ next.Mirrors after

namespace Shows

variable {sink : Sink}

/-- What clients do not see. -/
theorem unseen {before after : PageState} (intact : after.Intact) (bound : after.sink = some sink)
    (unchanged : ∀ client : Client, client.Mirrors before → client.Mirrors after) :
    Shows sink before [] after where
  intact := intact
  bound := bound
  addressed := fun _ member => absurd member List.not_mem_nil
  followed := fun client mirrors => ⟨client, rfl, unchanged client mirrors⟩

/-- A single invocation. -/
theorem seen {before after : PageState} {invocation : Invocation} (intact : after.Intact)
    (boundBefore : before.sink = some sink) (bound : after.sink = some sink)
    (followed : ∀ client : Client, client.Mirrors before →
      ∃ next, client.receive? invocation = some next ∧ next.Mirrors after) :
    Shows sink before (before.emit invocation) after := by
  have isEmitted : before.emit invocation = [⟨sink, invocation⟩] := by
    simp only [emit, boundBefore]
  rw [isEmitted]
  refine ⟨intact, bound, ?_, ?_⟩
  · intro emission member
    rw [List.mem_singleton.mp member]
  · intro client mirrors
    obtain ⟨next, received, stillMirrors⟩ := followed client mirrors
    refine ⟨next, ?_, stillMirrors⟩
    simp [Client.replay?, received]

theorem trans {first second third : PageState} {earlier later : List Emission}
    (before : Shows sink first earlier second) (after : Shows sink second later third) :
    Shows sink first (earlier ++ later) third where
  intact := after.intact
  bound := after.bound
  addressed := by
    intro emission member
    rcases List.mem_append.mp member with isEarlier | isLater
    · exact before.addressed emission isEarlier
    · exact after.addressed emission isLater
  followed := by
    intro client mirrors
    obtain ⟨middle, replayed, mirrorsMiddle⟩ := before.followed client mirrors
    obtain ⟨next, replayedOn, mirrorsNext⟩ := after.followed middle mirrorsMiddle
    refine ⟨next, ?_, mirrorsNext⟩
    rw [List.map_append, Client.replay?_append, replayed]
    exact replayedOn

/-- A property that is set and told. -/
theorem replace {page : PageState} (intact : page.Intact) (bound : page.sink = some sink)
    {target name : String} {value : Property} {before after : Component}
    (found : page.component? target = some before) (frame : before.SameFrame after)
    (properties_eq : after.properties = before.properties.insert name value)
    (isSet : target ≠ page.id → after = before.setProperty name value) :
    Shows sink page (page.emit ⟨updateFunction, some target, [.str name, value.toJson]⟩)
      (page.replace target after) := by
  refine seen (intact.replace found frame.id frame.parent frame.children) bound bound ?_
  intro client mirrors
  obtain ⟨next, updated, stillMirrors⟩ :=
    mirrors.update found frame.parent frame.children properties_eq isSet
  refine ⟨next, ?_, stillMirrors⟩
  rw [← updated]
  simp [Client.receive?, created?_update, Invocation.updated?]

end Shows

end PageState

namespace Building

variable {tree : PageTree} {origin : PageState} {parent : String} {sink : Sink}

theorem Edit.shows {building next : Building} (edit : Edit tree origin parent building next)
    (intact : building.page.Intact) (bound : building.page.sink = some sink) :
    ∃ told, next.emitted = building.emitted ++ told ∧ building.page.Shows sink told next.page := by
  have nextIntact := edit.intact intact
  cases edit with
  | draw =>
      exact ⟨[], (List.append_nil _).symm,
        .unseen nextIntact bound (fun _ mirrors => mirrors.of_same rfl rfl)⟩
  | @attach place above component alive isOpen foundAbove isNew noChildren =>
      have isFresh : building.page.component? component.id = none := by
        rw [isNew]
        exact intact.nextId_fresh
      refine ⟨_, rfl, .seen nextIntact bound bound ?_⟩
      intro client mirrors
      obtain ⟨after, created, stillMirrors⟩ := mirrors.create foundAbove isFresh noChildren
      refine ⟨after, ?_, stillMirrors.of_same rfl rfl⟩
      rw [← created]
      simp only [Client.receive?, created?_announcement]
  | @setUp definition name raw own changed isParent source foundOwn applied =>
      have takes := Component.takesOne_of_apply applied
      have frame := takes.sameFrame
      refine ⟨_, rfl, ?_⟩
      by_cases isProperty : Setting.ofName name = .property name
      · obtain ⟨value, -, inserted⟩ := takes.property isProperty
        have isSet : changed.properties.get? name = some value := by
          rw [inserted, Dict.get?_insert, if_pos rfl]
        rw [PageState.told_of_property isProperty isSet]
        exact .replace intact bound foundOwn frame inserted (fun notPage => absurd rfl notPage)
      · rw [PageState.told_of_not_property isProperty]
        exact .unseen nextIntact bound (fun _ mirrors =>
          mirrors.configure foundOwn frame.parent frame.children (takes.noProperty isProperty))

theorem Edits.shows {building next : Building} (edits : Edits tree origin parent building next)
    (intact : building.page.Intact) (bound : building.page.sink = some sink) :
    ∃ told, next.emitted = building.emitted ++ told ∧ building.page.Shows sink told next.page := by
  induction edits with
  | refl => exact ⟨[], (List.append_nil _).symm, .unseen intact bound (fun _ mirrors => mirrors)⟩
  | tail _ edit inductionHypothesis =>
      obtain ⟨earlier, isEarlier, before⟩ := inductionHypothesis
      obtain ⟨later, isLater, after⟩ := edit.shows before.intact before.bound
      refine ⟨earlier ++ later, ?_, before.trans after⟩
      rw [isLater, isEarlier, List.append_assoc]

end Building

namespace PageState

/-- Calls that clients are told everything about: components are made without failure, and
properties set with or without. -/
inductive Followable : PageState → List PageCall → Prop
  | nil (page : PageState) : Followable page []
  | materialize {page : PageState} {tree : PageTree} {parent : Option String} {building : Building}
      {ids : List String} {rest : List PageCall}
      (made : page.materialize tree parent = (building, .ok ids))
      (others : Followable building.page rest) : Followable page (.materialize tree parent :: rest)
  | setProperty {page : PageState} {target name : String} {value : Property}
      {rest : List PageCall} (others : Followable (page.perform (.setProperty target name value)).1 rest) :
      Followable page (.setProperty target name value :: rest)

/-- A property that cannot be set stays what it was, and nobody is told. -/
theorem perform_setProperty_of_error {page : PageState} {target name : String} {value : Property}
    {error : EventError} (failed : page.setProperty target name value = .error error) :
    page.perform (.setProperty target name value) = (page, []) := by
  simp only [perform, failed]

theorem shows_performAll {sink : Sink} {page : PageState} {calls : List PageCall}
    (followable : Followable page calls) (intact : page.Intact) (bound : page.sink = some sink) :
    Shows sink page (page.performAll calls).2 (page.performAll calls).1 := by
  induction followable with
  | nil page => exact .unseen intact bound (fun _ mirrors => mirrors)
  | @materialize page tree parent building ids rest made _ inductionHypothesis =>
      obtain ⟨reached, edits, outcome⟩ := edits_materialize page tree parent
      have isReached : reached = building := by
        rcases outcome with ⟨others, succeeded⟩ | ⟨error, failed⟩
        · rw [made] at succeeded
          exact (Prod.ext_iff.mp succeeded).1.symm
        · rw [made] at failed
          cases failed
      rw [isReached] at edits
      obtain ⟨told, isTold, first⟩ := edits.shows intact bound
      have isEmitted : building.emitted = told := isTold
      rw [← isEmitted] at first
      have performed : page.perform (.materialize tree parent) = (building.page, building.emitted) := by
        simp only [perform, made]
      simp only [performAll, performed]
      exact first.trans (inductionHypothesis first.intact first.bound)
  | @setProperty page target name value rest _ inductionHypothesis =>
      have first : Shows sink page (page.perform (.setProperty target name value)).2
          (page.perform (.setProperty target name value)).1 := by
        cases set : page.setProperty target name value with
        | error error =>
            rw [perform_setProperty_of_error set]
            exact .unseen intact bound (fun _ mirrors => mirrors)
        | ok result =>
            obtain ⟨-, component, found, next_eq, emitted_eq⟩ := setProperty_eq_ok_iff.mp set
            simp only [perform, set, next_eq, emitted_eq]
            exact .replace intact bound found ⟨rfl, rfl, rfl, rfl, rfl, rfl⟩ rfl (fun _ => rfl)
      simp only [performAll]
      exact first.trans (inductionHypothesis first.intact first.bound)

/-- A client that starts with the id of a page and follows the invocations in their order sees
the page's components as they are, however often components have been made and properties
set. A property that cannot be set changes nothing and emits nothing. -/
theorem client_mirrors_page {id src : String} {createdAt : Nat} {sink : Sink}
    {calls : List PageCall} (followable : Followable ((new id src createdAt).bind sink) calls) :
    let outcome := ((new id src createdAt).bind sink).performAll calls
    (∀ emission ∈ outcome.2, emission.sink = sink) ∧
      (∃ client, (Client.start id).replay? (outcome.2.map Emission.invocation) = some client ∧
        client.Mirrors outcome.1) ∧
      ∀ page target name value error, PageState.setProperty page target name value = .error error →
        page.perform (.setProperty target name value) = (page, []) := by
  intro outcome
  have intact : ((new id src createdAt).bind sink).Intact :=
    (intact_new id src createdAt).of_same rfl rfl (Nat.le_refl _) rfl
  have mirrors : (Client.start id).Mirrors ((new id src createdAt).bind sink) :=
    (Client.Mirrors.start id src createdAt).of_same rfl rfl
  have isShown := shows_performAll followable intact rfl
  exact ⟨isShown.addressed, isShown.followed _ mirrors,
    fun _ _ _ _ _ failed => perform_setProperty_of_error failed⟩

/-- A box with a text, made below the page, whose hint is changed afterwards. -/
theorem client_mirrors_box :
    ∃ blueprint client,
      (PageParser.new .core).parse .empty (.ofText
        "<fsp><page title=\"News\"/><div on:click=\"go\">hello</div></fsp>") = .ok blueprint ∧
      (Client.start "p").replay? ((((new "p" "news" 0).bind .observer).performAll
        [.materialize blueprint.tree none, .setProperty "p_1" "hint" (.text "new"),
          .setProperty "p_9" "hint" (.text "lost")]).2.map Emission.invocation) = some client ∧
      client.Mirrors (((new "p" "news" 0).bind .observer).performAll
        [.materialize blueprint.tree none, .setProperty "p_1" "hint" (.text "new"),
          .setProperty "p_9" "hint" (.text "lost")]).1 := by
  have isRead : (((PageParser.new .core).parse .empty (.ofText
      "<fsp><page title=\"News\"/><div on:click=\"go\">hello</div></fsp>")).toOption.map
        (fun blueprint =>
          (((new "p" "news" 0).bind .observer).materialize blueprint.tree none).2.toOption)) =
        some (some ["p_1"]) := by
    decide +kernel
  obtain ⟨blueprint, isSome, isMade⟩ := Option.map_eq_some_iff.mp isRead
  have made : ((new "p" "news" 0).bind .observer).materialize blueprint.tree none =
      ((((new "p" "news" 0).bind .observer).materialize blueprint.tree none).1, .ok ["p_1"]) :=
    Prod.ext rfl (eq_ok_of_toOption isMade)
  have followable : Followable ((new "p" "news" 0).bind .observer)
      [.materialize blueprint.tree none, .setProperty "p_1" "hint" (.text "new"),
        .setProperty "p_9" "hint" (.text "lost")] :=
    .materialize made (.setProperty (.setProperty (.nil _)))
  have shown := client_mirrors_page followable
  obtain ⟨client, replayed, mirrors⟩ := shown.2.1
  exact ⟨blueprint, client, eq_ok_of_toOption isSome, replayed, mirrors⟩

end PageState

end LivePage
