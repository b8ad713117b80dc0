import LivePage.Location.Locator

/-!
Contract: the top level of documents.

Owns:
- a parsed document has one root element, and no text beside it.

Does not own: the content of the root element.
-/

namespace LivePage.Markup

/-- Whether a node may stand beside the root element. -/
def Node.standsAside : Node → Bool
  | .element .. => false
  | .text _ => false
  | _ => true

namespace Construction

/-- Whether the top level holds one element, if it holds a root, and no text. -/
def Shaped (construction : Construction) : Prop :=
  if construction.hasRoot then
    ∃ name attributes children,
      construction.topLevel.filter (fun node => !node.standsAside) =
        [.element name attributes children]
  else construction.topLevel.filter (fun node => !node.standsAside) = []

theorem shaped_addTopLevel {construction next : Construction} (shaped : construction.Shaped)
    {node : Node} (added : construction.addTopLevel node = .ok next) : next.Shaped := by
  unfold addTopLevel at added
  split at added
  · next name attributes children =>
      split at added
      · cases added
      · next noRoot =>
          cases added
          rw [Shaped, if_neg noRoot] at shaped
          refine ⟨name, attributes, children, ?_⟩
          rw [List.filter_cons, shaped]
          rfl
  · split at added
    · cases added
      exact shaped
    · cases added
  · next notElement notText =>
      cases added
      have aside : node.standsAside = true := by
        cases node with
        | element name attributes children => exact (notElement _ _ _ rfl).elim
        | text text => exact (notText _ rfl).elim
        | cdata text => rfl
        | comment text => rfl
        | instruction target data => rfl
        | doctype text => rfl
      simpa [Shaped, List.filter_cons, aside] using shaped

theorem shaped_add {construction next : Construction} (shaped : construction.Shaped)
    {node : Node} (added : construction.add node = .ok next) : next.Shaped := by
  unfold add at added
  split at added
  · cases added
    exact shaped
  · exact shaped_addTopLevel shaped added

theorem shaped_take {construction next : Construction} (shaped : construction.Shaped)
    {kind : EventKind} (taken : construction.take kind = .ok next) : next.Shaped := by
  cases kind with
  | enter name attributes =>
      cases taken
      exact shaped
  | leave =>
      simp only [take] at taken
      split at taken
      · cases taken
      · next finished outer isOpen =>
          have outerShaped : Shaped { construction with openElements := outer } := shaped
          exact shaped_add outerShaped taken
  | declaration =>
      cases taken
      exact shaped
  | leaf name attributes => exact shaped_add shaped taken
  | text text => exact shaped_add shaped taken
  | cdata text => exact shaped_add shaped taken
  | comment text => exact shaped_add shaped taken
  | instruction content => exact shaped_add shaped taken
  | doctype text => exact shaped_add shaped taken

theorem shaped_takeAll {construction last : Construction} (shaped : construction.Shaped)
    {events : List Event} (taken : construction.takeAll events = .ok last) : last.Shaped := by
  induction events generalizing construction with
  | nil =>
      cases taken
      exact shaped
  | cons event rest inductionHypothesis =>
      simp only [takeAll] at taken
      split at taken
      · cases taken
      · next next takenFirst => exact inductionHypothesis (shaped_take shaped takenFirst) taken

/-- What a construction ends in is its root element among nodes that may stand beside it. -/
theorem eq_append_of_finish {construction : Construction} (shaped : construction.Shaped)
    {document : Document} (finished : construction.finish = .ok document) :
    ∃ before name attributes children after,
      document = ⟨before ++ .element name attributes children :: after⟩ ∧
        (∀ node ∈ before, node.standsAside = true) ∧
        ∀ node ∈ after, node.standsAside = true := by
  unfold finish at finished
  split at finished
  · cases finished
  · split at finished
    · next hasRoot =>
        cases finished
        rw [Shaped, if_pos hasRoot] at shaped
        obtain ⟨name, attributes, children, only⟩ := shaped
        have reversed : construction.topLevel.reverse.filter (fun node => !node.standsAside) =
            [.element name attributes children] := by
          rw [List.filter_reverse, only]
          rfl
        obtain ⟨before, after, split, asideBefore, -, noneAfter⟩ :=
          List.filter_eq_cons_iff.mp reversed
        refine ⟨before, name, attributes, children, after, by rw [split], ?_, ?_⟩
        · intro node inBefore
          simpa using asideBefore node inBefore
        · intro node inAfter
          simpa using List.filter_eq_nil_iff.mp noneAfter node inAfter
    · cases finished

end Construction

namespace Document

/-- A parsed document is its root element among nodes that may stand beside it. -/
theorem eq_append_of_parse {text : String} {document : Document}
    (parsed : parse text = .ok document) :
    ∃ before name attributes children after,
      document = ⟨before ++ .element name attributes children :: after⟩ ∧
        (∀ node ∈ before, node.standsAside = true) ∧
        ∀ node ∈ after, node.standsAside = true := by
  unfold parse ofStream at parsed
  split at parsed
  · cases parsed
  · next construction taken =>
      have shaped := Construction.shaped_takeAll (by rfl) taken
      split at parsed
      · cases parsed
      · split at parsed
        · cases parsed
        · next finished =>
            cases parsed
            exact Construction.eq_append_of_finish shaped finished

/-- All nodes beside the root of a parsed document may stand there. -/
theorem aside_of_parse {text : String} {before after : List Node} {name : Name}
    {attributes : List Attribute} {children : List Node}
    (parsed : parse text = .ok ⟨before ++ .element name attributes children :: after⟩) :
    (∀ node ∈ before, node.standsAside = true) ∧ ∀ node ∈ after, node.standsAside = true := by
  obtain ⟨front, rootName, rootAttributes, content, back, same, asideFront, asideBack⟩ :=
    eq_append_of_parse parsed
  have none_of_aside : ∀ {nodes : List Node}, (∀ node ∈ nodes, node.standsAside = true) →
      nodes.filter (fun node => !node.standsAside) = [] := by
    intro nodes aside
    simpa using aside
  have isRoot : ∀ name attributes children,
      (Node.element name attributes children).standsAside = false := fun _ _ _ => rfl
  have filtered := congrArg (List.filter (fun node => !node.standsAside)) (mk.inj same)
  simp only [List.filter_append, List.filter_cons, isRoot, Bool.not_false, if_true,
    none_of_aside asideFront, none_of_aside asideBack, List.nil_append] at filtered
  obtain ⟨noneBefore, only⟩ | ⟨-, impossible⟩ := List.append_eq_singleton_iff.mp filtered
  · have noneAfter := (List.cons.inj only).2
    exact ⟨by simpa using noneBefore, by simpa using noneAfter⟩
  · cases impossible

theorem root?_eq_some {before after : List Node} {name : Name} {attributes : List Attribute}
    {children : List Node} (aside : ∀ node ∈ before, node.standsAside = true) :
    root? ⟨before ++ .element name attributes children :: after⟩ =
      some (name, attributes, children) := by
  induction before with
  | nil => rfl
  | cons head rest inductionHypothesis =>
      have headAside := aside head (by simp)
      cases head with
      | element name attributes children => cases headAside
      | text text => cases headAside
      | cdata text => exact inductionHypothesis (fun node member => aside node (by simp [member]))
      | comment text => exact inductionHypothesis (fun node member => aside node (by simp [member]))
      | instruction target data =>
          exact inductionHypothesis (fun node member => aside node (by simp [member]))
      | doctype text => exact inductionHypothesis (fun node member => aside node (by simp [member]))

end Document

end LivePage.Markup

namespace LivePage

theorem PageSource.document_eq_ok_iff {source : PageSource} {document : Markup.Document} :
    source.document = .ok document ↔ Markup.Document.parse source.text = .ok document := by
  unfold PageSource.document
  cases Markup.Document.parse source.text <;> simp

end LivePage
