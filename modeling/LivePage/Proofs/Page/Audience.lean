import LivePage.Page.Reaction

/-!
Contract: who an event goes to.

Owns:
- the handler that the target of an event binds to it, and the reasons for which it has none;
- the listeners to an event, in their order;
- what reactions register on a page, and what that makes of its handlers and listeners.

Does not own: the runs of handlers and listeners.
-/

namespace LivePage

/-! ## Listeners -/

def Listener.Hears (listener : Listener) (event : Event) : Prop :=
  listener.target = event.target ∧ listener.eventType = event.eventType

/-- What those among some listeners who hear an event do about it, in their order. -/
inductive Listening (event : Event) : List Listener → List EventHandler → Prop
  | nobody : Listening event [] []
  | hears {listener : Listener} {rest : List Listener} {reactions : List EventHandler}
      (isFor : listener.Hears event) (others : Listening event rest reactions) :
      Listening event (listener :: rest) (listener.react :: reactions)
  | other {listener : Listener} {rest : List Listener} {reactions : List EventHandler}
      (isNotFor : ¬ listener.Hears event) (others : Listening event rest reactions) :
      Listening event (listener :: rest) reactions

namespace Page

variable {page : Page} {event : Event}

theorem listening_filter (event : Event) (listeners : List Listener) :
    Listening event listeners ((listeners.filter (fun listener =>
      listener.target == event.target && listener.eventType == event.eventType)).map
        Listener.react) := by
  induction listeners with
  | nil => exact .nobody
  | cons listener rest inductionHypothesis =>
      simp only [List.filter_cons, Bool.and_eq_true, beq_iff_eq]
      split
      · next isFor => exact .hears isFor inductionHypothesis
      · next isNotFor => exact .other isNotFor inductionHypothesis

/-- Listeners hear an event by its target and its type, in the order in which a page has them. -/
theorem listening_listenersTo (page : Page) (event : Event) :
    Listening event page.listeners (page.listenersTo event) :=
  listening_filter event page.listeners

/-! ## Bound handlers -/

/-- What the target of an event binds to it: the handler that the page has under the name that
the target gives for the type of the event. Without such a name there is no handler, and that is
no error; a page at its end, a target that is not on the page and a name without a handler are. -/
inductive Binding (page : Page) (event : Event) : Except EventError (List EventHandler) → Prop
  | destroyed (isDestroyed : page.state.isDestroyed = true) :
      Binding page event (.error (.pageDestroyed page.state.id))
  | unknownTarget (isAlive : page.state.isDestroyed = false)
      (isUnknown : page.state.components.get? event.target = none) :
      Binding page event (.error (.unknownTarget event.target))
  | unbound {target : Component} (isAlive : page.state.isDestroyed = false)
      (isTarget : page.state.components.get? event.target = some target)
      (isUnnamed : target.events.get? event.eventType = none) :
      Binding page event (.ok [])
  | missingHandler {target : Component} {name : String}
      (isAlive : page.state.isDestroyed = false)
      (isTarget : page.state.components.get? event.target = some target)
      (isNamed : target.events.get? event.eventType = some name)
      (isMissing : page.handlers.get? name = none) :
      Binding page event (.error (.missingHandler name))
  | bound {target : Component} {name : String} {handler : EventHandler}
      (isAlive : page.state.isDestroyed = false)
      (isTarget : page.state.components.get? event.target = some target)
      (isNamed : target.events.get? event.eventType = some name)
      (isHandler : page.handlers.get? name = some handler) :
      Binding page event (.ok [handler])

theorem binding_boundHandlers (page : Page) (event : Event) :
    Binding page event (page.boundHandlers event) := by
  unfold boundHandlers
  by_cases isDestroyed : page.state.isDestroyed = true
  · rw [if_pos isDestroyed]
    exact .destroyed isDestroyed
  · rw [if_neg isDestroyed]
    have isAlive : page.state.isDestroyed = false := eq_false_of_ne_true isDestroyed
    unfold PageState.component?
    cases isTarget : page.state.components.get? event.target with
    | none => exact .unknownTarget isAlive isTarget
    | some target =>
        dsimp only
        cases isNamed : target.events.get? event.eventType with
        | none => exact .unbound isAlive isTarget isNamed
        | some name =>
            dsimp only
            cases isHandler : page.handlers.get? name with
            | none => exact .missingHandler isAlive isTarget isNamed isHandler
            | some handler => exact .bound isAlive isTarget isNamed isHandler

/-! ## Registrations -/

end Page

/-- The handlers of a page by their names, and its listeners. -/
structure Registered where
  handlers : Dict EventHandler
  listeners : List Listener

/-- Something registered on a page, or the end of all that is. -/
inductive Registration where
  | handler (name : String) (react : EventHandler)
  | listener (added : Listener)
  | ended

/-- The last handler of a name counts; listeners line up. -/
def Registration.perform (registered : Registered) : Registration → Registered
  | .handler name react => { registered with handlers := registered.handlers.insert name react }
  | .listener added => { registered with listeners := registered.listeners ++ [added] }
  | .ended => ⟨.empty, []⟩

namespace Page

def registered (page : Page) : Registered :=
  ⟨page.handlers, page.listeners⟩

/-- What a reaction registers on a page, in its order. A page ends once. -/
def registrations : Reaction → Page → List Registration
  | .done, _ => []
  | .fail _, _ => []
  | .look next, page => registrations (next page.state) page
  | .note _ next, page => registrations next page
  | .setProperty target name value next, page =>
      match page.state.setProperty target name value with
      | .ok (state, emissions) =>
          registrations (next (.ok ())) ((page.withState state).echoed emissions)
      | .error error => registrations (next (.error error)) page
  | .invoke invocation next, page =>
      registrations next (page.echoed (page.state.emit invocation))
  | .queueEvent event next, page => registrations next (page.withState (page.state.queueEvent event))
  | .clearQueue next, page => registrations next (page.withState page.state.clearQueue)
  | .discard target next, page =>
      let (state, count) := page.state.discard target
      registrations (next count) (page.withState state)
  | .setHandler name handler next, page =>
      .handler name handler :: registrations next (page.setHandler name handler)
  | .addListener target eventType listener next, page =>
      .listener ⟨target, eventType, listener⟩ ::
        registrations next (page.addListener target eventType listener)
  | .destroy next, page =>
      (if page.state.isDestroyed then [] else [.ended]) ++ registrations next page.destroy

theorem registered_destroy (page : Page) :
    page.destroy.registered =
      (if page.state.isDestroyed then [] else [Registration.ended]).foldl Registration.perform
        page.registered := by
  unfold Page.destroy
  split <;> rfl

/-- A reaction leaves the handlers and listeners that its registrations make. -/
theorem registered_run (reaction : Reaction) (page : Page) :
    (run reaction page).1.registered =
      (registrations reaction page).foldl Registration.perform page.registered := by
  induction reaction generalizing page with
  | done => rfl
  | fail error => rfl
  | look next inductionHypothesis => exact inductionHypothesis page.state page
  | note entry next inductionHypothesis => exact inductionHypothesis page
  | setProperty target name value next inductionHypothesis =>
      unfold run registrations
      cases page.state.setProperty target name value with
      | ok result => exact inductionHypothesis (.ok ()) _
      | error error => exact inductionHypothesis (.error error) page
  | invoke invocation next inductionHypothesis => exact inductionHypothesis _
  | queueEvent event next inductionHypothesis => exact inductionHypothesis _
  | clearQueue next inductionHypothesis => exact inductionHypothesis _
  | discard target next inductionHypothesis => exact inductionHypothesis _ _
  | setHandler name handler next _ inductionHypothesis => exact inductionHypothesis _
  | addListener target eventType listener next _ inductionHypothesis => exact inductionHypothesis _
  | destroy next inductionHypothesis =>
      show (run next page.destroy).1.registered = _
      rw [inductionHypothesis, registered_destroy, ← List.foldl_append]
      rfl

end Page

end LivePage
