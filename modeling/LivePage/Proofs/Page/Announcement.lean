import LivePage.Proofs.Page.ComponentTree

/-!
Contract: what the client reads in the announcement of a component.

Owns:
- the fields of the object that announces a component;
- the announcements among invocations, with the parent and the object in them.

Does not own: what the client does about them.
-/

namespace LivePage

/-! ## The object of a component -/

namespace Component

/-- The fields of the object in the order of writing. -/
private theorem field?_payload (component : Component) (name : String) :
    component.payload.field? name =
      if name = "cargs" ∧ component.arguments ≠ [] then some (.arr component.arguments)
      else if name = "attrs" then some (Json.ofDict .str component.domAttributes)
      else if name = "events" then some (Json.ofDict (fun _ => .bool true) component.events)
      else if name = "props" then some (Json.ofDict Property.toJson component.properties)
      else if name = "wclazz" then some (.str component.widgetClass)
      else if name = "id" then some (.str component.id)
      else none := by
  unfold payload Json.ofFields Json.field? Entries.ofList
  cases component.arguments with
  | nil => simp [Entries.find?_put, Entries.find?]
  | cons argument rest => simp [Entries.find?_put, Entries.find?]

variable (component : Component)

theorem textAt_payload_id : component.payload.textAt "id" = component.id := by
  simp [Json.textAt, Json.part, field?_payload, Json.textOf]

theorem textAt_payload_class : component.payload.textAt "wclazz" = component.widgetClass := by
  simp [Json.textAt, Json.part, field?_payload, Json.textOf]

theorem part_payload_properties :
    component.payload.part "props" = Json.ofDict Property.toJson component.properties := by
  simp [Json.part, field?_payload]

theorem part_payload_events :
    component.payload.part "events" = Json.ofDict (fun _ => .bool true) component.events := by
  simp [Json.part, field?_payload]

theorem part_payload_attributes :
    component.payload.part "attrs" = Json.ofDict .str component.domAttributes := by
  simp [Json.part, field?_payload]

/-- Absent arguments are read as none. -/
theorem listAt_payload_arguments : component.payload.listAt "cargs" = component.arguments := by
  by_cases noArguments : component.arguments = []
  · simp [Json.listAt, Json.part, field?_payload, noArguments, Json.itemsOf]
  · simp [Json.listAt, Json.part, field?_payload, noArguments, Json.itemsOf]

end Component

/-! ## Announcements -/

/-- The parent and the object of a new component, if an invocation announces one. -/
def Invocation.created? (invocation : Invocation) : Option (String × Json) :=
  match invocation.arguments with
  | [.str parent, payload] =>
      if invocation.function = PageState.createFunction then some (parent, payload) else none
  | _ => none

/-- The ids of the components that are announced, in the order of the announcements. -/
def announcedIds (emissions : List Emission) : List String :=
  emissions.filterMap (fun emission =>
    emission.invocation.created?.map (fun created => created.2.textAt "id"))

theorem announcedIds_append (first second : List Emission) :
    announcedIds (first ++ second) = announcedIds first ++ announcedIds second :=
  List.filterMap_append

theorem created?_announcement (parent : String) (component : Component) :
    (Invocation.onClient PageState.createFunction [.str parent, component.payload]).created? =
      some (parent, component.payload) := by
  simp [Invocation.onClient, Invocation.created?]

theorem created?_update (target name : String) (value : Json) :
    (Invocation.mk PageState.updateFunction (some target) [.str name, value]).created? = none := by
  simp [Invocation.created?, PageState.updateFunction, PageState.createFunction]

end LivePage
