import LivePage.Proofs.Markup.Document
import LivePage.Proofs.Markup.Lexemes

/-!
Contract: documents and the events that they are read from.

Owns:
- the marks of a tree in document order: where elements open and close, and what stands
  between;
- a tree is known from its marks;
- the nesting of events, and when they complete a document;
- the tree that is read from events has their marks.

Does not own: the tokens that the events come from.
-/

namespace LivePage.Markup

/-- A mark of a document. -/
inductive Mark where
  | opens (name : Name) (attributes : List Attribute)
  | closes
  | text (text : String)
  | cdata (text : String)
  | comment (text : String)
  | instruction (target data : String)
  | doctype (text : String)
deriving DecidableEq, Repr

/-! ## The marks of a tree -/

mutual

/-- The marks of a node in document order. -/
def Node.marks : Node → List Mark
  | .element name attributes children =>
      .opens name attributes :: (Node.marksAll children ++ [.closes])
  | .text content => [.text content]
  | .cdata content => [.cdata content]
  | .comment content => [.comment content]
  | .instruction target data => [.instruction target data]
  | .doctype content => [.doctype content]

def Node.marksAll : List Node → List Mark
  | [] => []
  | node :: rest => Node.marks node ++ Node.marksAll rest

end

namespace Node

theorem marksAll_append (front back : List Node) :
    marksAll (front ++ back) = marksAll front ++ marksAll back := by
  induction front with
  | nil => rfl
  | cons node rest inductionHypothesis =>
      rw [List.cons_append, marksAll, marksAll, inductionHypothesis, List.append_assoc]

theorem marksAll_singleton (node : Node) : marksAll [node] = marks node := by
  rw [marksAll, marksAll, List.append_nil]

end Node

/-- Nodes that were read back from marks, in reverse, and the elements around them. -/
structure Replanting where
  nodes : List Node
  around : List OpenElement

namespace Replanting

def add (replanting : Replanting) (node : Node) : Replanting :=
  { replanting with nodes := node :: replanting.nodes }

def take (replanting : Replanting) : Mark → Replanting
  | .opens name attributes => ⟨[], ⟨name, attributes, replanting.nodes⟩ :: replanting.around⟩
  | .closes =>
      match replanting.around with
      | [] => replanting
      | innermost :: outer =>
          ⟨.element innermost.name innermost.attributes replanting.nodes.reverse ::
            innermost.children, outer⟩
  | .text text => replanting.add (.text text)
  | .cdata text => replanting.add (.cdata text)
  | .comment text => replanting.add (.comment text)
  | .instruction target data => replanting.add (.instruction target data)
  | .doctype text => replanting.add (.doctype text)

mutual

theorem foldl_take_marks (replanting : Replanting) :
    (node : Node) → node.marks.foldl take replanting = replanting.add node
  | .element name attributes children => by
      rw [Node.marks, List.foldl_cons, List.foldl_append, foldl_take_marksAll _ children]
      simp [take, add]
  | .text text => rfl
  | .cdata text => rfl
  | .comment text => rfl
  | .instruction target data => rfl
  | .doctype text => rfl

theorem foldl_take_marksAll (replanting : Replanting) :
    (nodes : List Node) → (Node.marksAll nodes).foldl take replanting =
      { replanting with nodes := nodes.reverse ++ replanting.nodes }
  | [] => rfl
  | node :: rest => by
      rw [Node.marksAll, List.foldl_append, foldl_take_marks replanting node,
        foldl_take_marksAll _ rest]
      simp [add]

end

end Replanting

/-- Nodes are known from their marks. -/
theorem Node.marksAll_injective {nodes others : List Node}
    (same : marksAll nodes = marksAll others) : nodes = others := by
  have replanted := congrArg (List.foldl Replanting.take ⟨[], []⟩) same
  rw [Replanting.foldl_take_marksAll, Replanting.foldl_take_marksAll] at replanted
  simpa using replanted

/-! ## The marks of events -/

/-- The target of an instruction: its content up to the first space behind the leading one. -/
def instructionTarget (content : String) : String :=
  String.ofList ((Text.trim content.toList).takeWhile (fun char => !Text.isBlank char))

/-- The data of an instruction: what stands behind the target, without space around it. -/
def instructionData (content : String) : String :=
  String.ofList
    (Text.trim ((Text.trim content.toList).dropWhile (fun char => !Text.isBlank char)))

theorem splitInstruction_eq (content : String) :
    Construction.splitInstruction content =
      .instruction (instructionTarget content) (instructionData content) := by
  unfold Construction.splitInstruction instructionTarget instructionData
  generalize Text.trim content.toList = trimmed
  dsimp only
  rw [Text.cutAt?_eq]
  cases behind : trimmed.dropWhile (fun char => !Text.isBlank char) with
  | nil =>
      have all : trimmed.takeWhile (fun char => !Text.isBlank char) = trimmed := by
        have whole := List.takeWhile_append_dropWhile
          (p := fun char => !Text.isBlank char) (l := trimmed)
        rwa [behind, List.append_nil] at whole
      rw [all]
      rfl
  | cons mark data =>
      have isBlank : Text.isBlank mark = true := by
        have first := List.head?_dropWhile_not (fun char => !Text.isBlank char) trimmed
        rw [behind] at first
        simpa using first
      have trimmedData : Text.trim (mark :: data) = Text.trim data := by
        rw [Text.trim, Text.trim, Text.trimStart, List.dropWhile_cons_of_pos isBlank]
        rfl
      rw [trimmedData]

namespace EventKind

def startsElement : EventKind → Bool
  | .enter _ _ => true
  | .leaf _ _ => true
  | _ => false

/-- How many elements are open behind an event. -/
def depthAfter (depth : Nat) : EventKind → Nat
  | .enter _ _ => depth + 1
  | .leave => depth - 1
  | _ => depth

/-- The marks of an event. Declarations leave none, nor does blank text where no element is
open. -/
def marksAt (depth : Nat) : EventKind → List Mark
  | .enter name attributes => [.opens name attributes]
  | .leaf name attributes => [.opens name attributes, .closes]
  | .leave => [.closes]
  | .text content => if depth = 0 ∧ Text.allBlank content then [] else [.text content]
  | .cdata content => [.cdata content]
  | .comment content => [.comment content]
  | .instruction content => [.instruction (instructionTarget content) (instructionData content)]
  | .declaration => []
  | .doctype content => [.doctype content]

/-- Whether an event may stand where a number of elements is open. -/
def FitsAt (depth : Nat) : EventKind → Prop
  | .leave => 0 < depth
  | .text content => depth = 0 → Text.allBlank content = true
  | _ => True

/-- Events, each with the number of elements that are open before it. -/
def placed (depth : Nat) : List EventKind → List (Nat × EventKind)
  | [] => []
  | kind :: rest => (depth, kind) :: placed (kind.depthAfter depth) rest

def marksOf (depth : Nat) (kinds : List EventKind) : List Mark :=
  (placed depth kinds).flatMap fun place => place.2.marksAt place.1

end EventKind

open EventKind (placed marksOf)

/-- Events that complete a document of which `depth` elements are open and `begun` elements were
begun at top level: every closing tag closes an open element and text at top level is blank, in
the end nothing is open, and one element is at top level. -/
structure Completes (depth begun : Nat) (kinds : List EventKind) : Prop where
  fits : ∀ place ∈ placed depth kinds, place.2.FitsAt place.1
  allClosed : kinds.foldl EventKind.depthAfter depth = 0
  oneRoot :
    begun + (placed depth kinds).countP (fun place => place.1 == 0 && place.2.startsElement) = 1

theorem completes_nil {depth begun : Nat} : Completes depth begun [] ↔ depth = 0 ∧ begun = 1 :=
  ⟨fun completes => ⟨completes.allClosed, completes.oneRoot⟩,
    fun ⟨closed, one⟩ => ⟨fun _ => nofun, closed, one⟩⟩

/-- How many elements an event begins at top level. -/
def EventKind.beginsAt (depth : Nat) (kind : EventKind) : Nat :=
  if depth == 0 && kind.startsElement then 1 else 0

theorem completes_cons {depth begun : Nat} {kind : EventKind} {rest : List EventKind} :
    Completes depth begun (kind :: rest) ↔
      kind.FitsAt depth ∧
        Completes (kind.depthAfter depth) (begun + kind.beginsAt depth) rest := by
  have counted : (placed depth (kind :: rest)).countP
        (fun place => place.1 == 0 && place.2.startsElement) =
      kind.beginsAt depth + (placed (kind.depthAfter depth) rest).countP
        (fun place => place.1 == 0 && place.2.startsElement) := by
    rw [placed, List.countP_cons, Nat.add_comm]
    rfl
  constructor
  · rintro ⟨fits, allClosed, oneRoot⟩
    obtain ⟨fitsHere, fitsLater⟩ := List.forall_mem_cons.mp fits
    rw [counted, ← Nat.add_assoc] at oneRoot
    exact ⟨fitsHere, fitsLater, allClosed, oneRoot⟩
  · rintro ⟨fitsHere, fitsLater, allClosed, oneRoot⟩
    refine ⟨List.forall_mem_cons.mpr ⟨fitsHere, fitsLater⟩, allClosed, ?_⟩
    rw [counted, ← Nat.add_assoc]
    exact oneRoot

/-! ## The construction -/

namespace Construction

/-- The marks of the open elements and of what they hold by now, the innermost first. -/
def marksOpen : List OpenElement → List Mark
  | [] => []
  | innermost :: outer =>
      marksOpen outer ++
        .opens innermost.name innermost.attributes :: Node.marksAll innermost.children.reverse

def marks (construction : Construction) : List Mark :=
  Node.marksAll construction.topLevel.reverse ++ marksOpen construction.openElements

def depth (construction : Construction) : Nat :=
  construction.openElements.length

/-- How many elements were begun at top level. -/
def begun (construction : Construction) : Nat :=
  (if construction.hasRoot then 1 else 0) + (if construction.openElements.isEmpty then 0 else 1)

/-- A node has been put in, with which a number of elements was begun at top level. -/
structure Adds (construction : Construction) (node : Node) (begins : Nat) (next : Construction) :
    Prop where
  depth_eq : next.depth = construction.depth
  begun_eq : next.begun = construction.begun + begins
  marks_eq : next.marks = construction.marks ++ node.marks

theorem adds_inside (innermost : OpenElement) (outer : List OpenElement) (topLevel : List Node)
    (hasRoot : Bool) (node : Node) :
    ∃ next, add ⟨innermost :: outer, topLevel, hasRoot⟩ node = .ok next ∧
      Adds ⟨innermost :: outer, topLevel, hasRoot⟩ node 0 next := by
  refine ⟨_, rfl, rfl, rfl, ?_⟩
  simp [marks, marksOpen, Node.marksAll_append, Node.marksAll_singleton]

theorem adds_aside (construction : Construction) {node : Node} (aside : node.standsAside = true) :
    ∃ next, construction.add node = .ok next ∧ construction.Adds node 0 next := by
  obtain ⟨openElements, topLevel, hasRoot⟩ := construction
  cases openElements with
  | cons innermost outer => exact adds_inside innermost outer topLevel hasRoot node
  | nil =>
      have added : add ⟨[], topLevel, hasRoot⟩ node = .ok ⟨[], node :: topLevel, hasRoot⟩ := by
        cases node <;> first | rfl | cases aside
      refine ⟨_, added, rfl, rfl, ?_⟩
      simp [marks, marksOpen, Node.marksAll_append, Node.marksAll_singleton]

/-- An element is put in, unless it would be a second root. -/
theorem adds_element (construction : Construction) (name : Name) (attributes : List Attribute)
    (children : List Node) :
    let node := Node.element name attributes children
    let begins := if construction.depth == 0 then 1 else 0
    match construction.add node with
    | .ok next => construction.Adds node begins next
    | .error _ => 1 < construction.begun + begins := by
  intro node begins
  obtain ⟨openElements, topLevel, hasRoot⟩ := construction
  cases openElements with
  | cons innermost outer =>
      obtain ⟨next, added, adds⟩ := adds_inside innermost outer topLevel hasRoot node
      rw [added]
      exact adds
  | nil =>
      cases hasRoot with
      | true => exact Nat.lt_succ_self 1
      | false =>
          refine ⟨rfl, rfl, ?_⟩
          simp [marks, marksOpen, Node.marksAll_append, Node.marksAll_singleton, node]

/-- What taking an event in does. -/
structure Takes (construction : Construction) (kind : EventKind) (next : Construction) :
    Prop where
  fits : kind.FitsAt construction.depth
  depth_eq : next.depth = kind.depthAfter construction.depth
  begun_eq : next.begun = construction.begun + kind.beginsAt construction.depth
  marks_eq : next.marks = construction.marks ++ kind.marksAt construction.depth

/-- An event is taken in, or refused for its place or as a second root. -/
def Settles (construction : Construction) (kind : EventKind) : Prop :=
  match construction.take kind with
  | .ok next => construction.Takes kind next
  | .error _ =>
      ¬kind.FitsAt construction.depth ∨ 1 < construction.begun + kind.beginsAt construction.depth

theorem settles_of_aside (construction : Construction) {kind : EventKind} {node : Node}
    (isAdd : construction.take kind = construction.add node) (aside : node.standsAside = true)
    (fits : kind.FitsAt construction.depth)
    (stays : kind.depthAfter construction.depth = construction.depth)
    (begins : kind.startsElement = false)
    (sameMarks : kind.marksAt construction.depth = node.marks) : construction.Settles kind := by
  obtain ⟨next, added, adds⟩ := adds_aside construction aside
  rw [Settles, isAdd, added]
  have none : kind.beginsAt construction.depth = 0 := by
    rw [EventKind.beginsAt, begins, Bool.and_false, if_neg Bool.false_ne_true]
  exact ⟨fits, adds.depth_eq.trans stays.symm, by rw [none]; exact adds.begun_eq,
    by rw [sameMarks]; exact adds.marks_eq⟩

theorem settles_enter (construction : Construction) (name : Name)
    (attributes : List Attribute) : construction.Settles (.enter name attributes) := by
  obtain ⟨openElements, topLevel, hasRoot⟩ := construction
  refine ⟨trivial, rfl, ?_, ?_⟩
  · cases openElements <;> rfl
  · simp [marks, marksOpen, EventKind.marksAt, Node.marksAll]

theorem settles_leaf (construction : Construction) (name : Name)
    (attributes : List Attribute) : construction.Settles (.leaf name attributes) := by
  have begins : (EventKind.leaf name attributes).beginsAt construction.depth =
      if construction.depth == 0 then 1 else 0 := by
    rw [EventKind.beginsAt, EventKind.startsElement, Bool.and_true]
  have element := adds_element construction name attributes []
  dsimp only at element
  rw [Settles, take]
  split at element
  · exact ⟨trivial, element.depth_eq, begins ▸ element.begun_eq, element.marks_eq⟩
  · exact .inr (begins ▸ element)

theorem settles_leave (construction : Construction) : construction.Settles .leave := by
  obtain ⟨openElements, topLevel, hasRoot⟩ := construction
  rw [Settles, take]
  cases openElements with
  | nil => exact .inl (Nat.lt_irrefl 0)
  | cons finished outer =>
      -- The element counts as begun from its opening tag on, whether it is the root or not.
      have begins : begun ⟨finished :: outer, topLevel, hasRoot⟩ =
          begun ⟨outer, topLevel, hasRoot⟩ +
            if depth ⟨outer, topLevel, hasRoot⟩ == 0 then 1 else 0 := by
        cases outer <;> rfl
      have closed : marks ⟨finished :: outer, topLevel, hasRoot⟩ ++ [.closes] =
          marks ⟨outer, topLevel, hasRoot⟩ ++ Node.marks
            (.element finished.name finished.attributes finished.children.reverse) := by
        simp [marks, marksOpen, Node.marks]
      have element := adds_element ⟨outer, topLevel, hasRoot⟩ finished.name finished.attributes
        finished.children.reverse
      dsimp only at element ⊢
      rw [← begins] at element
      split at element
      · exact ⟨Nat.succ_pos _, element.depth_eq, element.begun_eq.trans begins.symm,
          element.marks_eq.trans closed.symm⟩
      · exact .inr element

theorem settles_text (construction : Construction) (content : String) :
    construction.Settles (.text content) := by
  obtain ⟨openElements, topLevel, hasRoot⟩ := construction
  rw [Settles, take]
  cases openElements with
  | cons innermost outer =>
      obtain ⟨next, added, adds⟩ := adds_inside innermost outer topLevel hasRoot (.text content)
      rw [added]
      exact ⟨fun none => absurd none (Nat.succ_ne_zero _), adds.depth_eq, adds.begun_eq,
        adds.marks_eq⟩
  | nil =>
      cases isBlank : Text.allBlank content with
      | true =>
          have dropped : add ⟨[], topLevel, hasRoot⟩ (.text content) =
              .ok ⟨[], topLevel, hasRoot⟩ := if_pos isBlank
          have none : (EventKind.text content).marksAt 0 = [] := if_pos ⟨rfl, isBlank⟩
          rw [dropped]
          exact ⟨fun _ => isBlank, rfl, rfl, by rw [depth, List.length_nil, none, List.append_nil]⟩
      | false =>
          have refused : add ⟨[], topLevel, hasRoot⟩ (.text content) = .error .textOutsideRoot :=
            if_neg (Bool.not_eq_true _ ▸ isBlank)
          rw [refused]
          refine .inl fun fits => ?_
          rw [fits rfl] at isBlank
          cases isBlank

theorem settles (construction : Construction) (kind : EventKind) : construction.Settles kind := by
  cases kind with
  | enter name attributes => exact settles_enter construction name attributes
  | leaf name attributes => exact settles_leaf construction name attributes
  | leave => exact settles_leave construction
  | text content => exact settles_text construction content
  | cdata content => exact settles_of_aside construction rfl rfl trivial rfl rfl rfl
  | comment content => exact settles_of_aside construction rfl rfl trivial rfl rfl rfl
  | doctype content => exact settles_of_aside construction rfl rfl trivial rfl rfl rfl
  | instruction content =>
      have isAdd : construction.take (.instruction content) = construction.add
          (.instruction (instructionTarget content) (instructionData content)) := by
        rw [take, splitInstruction_eq]
      exact settles_of_aside construction isAdd rfl trivial rfl rfl rfl
  | declaration => exact ⟨trivial, rfl, by simp [EventKind.beginsAt, EventKind.startsElement],
      (List.append_nil _).symm⟩

theorem completes_cons_iff (construction : Construction) (kind : EventKind)
    (rest : List EventKind) :
    Completes construction.depth construction.begun (kind :: rest) ↔
      ∃ next, construction.take kind = .ok next ∧ Completes next.depth next.begun rest := by
  have settled := construction.settles kind
  unfold Settles at settled
  rw [completes_cons]
  split at settled
  · next next taken =>
      simp [taken, settled.fits, settled.depth_eq, settled.begun_eq]
  · next cause taken =>
      have refused : ¬(kind.FitsAt construction.depth ∧ Completes
          (kind.depthAfter construction.depth)
          (construction.begun + kind.beginsAt construction.depth) rest) := by
        rintro ⟨fits, completes⟩
        have one := completes.oneRoot
        rcases settled with unfit | second
        · exact unfit fits
        · omega
      simp [taken, refused]

/-- Events complete what is there by now exactly if they can be taken in and end in a
document. -/
theorem completes_iff (construction : Construction) (events : List Event) :
    Completes construction.depth construction.begun (events.map Event.kind) ↔
      ∃ last document, construction.takeAll events = .ok last ∧ last.finish = .ok document := by
  induction events generalizing construction with
  | nil =>
      obtain ⟨openElements, topLevel, hasRoot⟩ := construction
      rw [List.map_nil, completes_nil]
      cases openElements <;> cases hasRoot <;> simp [takeAll, finish, depth, begun]
  | cons event rest inductionHypothesis =>
      rw [List.map_cons, completes_cons_iff, takeAll]
      cases taken : construction.take event.kind with
      | error cause => simp
      | ok next => simp [inductionHypothesis]

/-- What is there in the end has the marks of what was there and of the events. -/
theorem marks_takeAll {construction last : Construction} {events : List Event}
    (taken : construction.takeAll events = .ok last) :
    last.marks = construction.marks ++ marksOf construction.depth (events.map Event.kind) := by
  induction events generalizing construction with
  | nil =>
      cases taken
      exact (List.append_nil _).symm
  | cons event rest inductionHypothesis =>
      have settled := construction.settles event.kind
      rw [takeAll] at taken
      unfold Settles at settled
      split at taken
      · cases taken
      · next next takenFirst =>
          rw [takenFirst] at settled
          rw [inductionHypothesis taken, settled.marks_eq, settled.depth_eq, List.append_assoc]
          rfl

theorem marksAll_of_finish {construction : Construction} {document : Document}
    (finished : construction.finish = .ok document) :
    Node.marksAll document.nodes = construction.marks := by
  obtain ⟨openElements, topLevel, hasRoot⟩ := construction
  cases openElements with
  | cons unclosed outer => cases finished
  | nil =>
      cases hasRoot with
      | false => cases finished
      | true =>
          cases finished
          exact (List.append_nil _).symm

end Construction

namespace Document

variable {stream : EventStream} {document : Document}

theorem ofStream_eq_ok_iff :
    ofStream stream = .ok document ↔
      stream.fault = none ∧ ∃ last, Construction.empty.takeAll stream.events = .ok last ∧
        last.finish = .ok document := by
  unfold ofStream
  cases Construction.empty.takeAll stream.events with
  | error malformed => simp
  | ok last =>
      cases stream.fault with
      | some malformed => simp
      | none => cases finished : last.finish <;> simp [finished]

/-- A stream gives a document exactly if it has no fault and its events complete one. -/
theorem exists_ofStream_iff :
    (∃ document, ofStream stream = .ok document) ↔
      stream.fault = none ∧ Completes 0 0 (stream.events.map Event.kind) := by
  have completes := Construction.empty.completes_iff stream.events
  rw [show Construction.empty.depth = 0 from rfl, show Construction.empty.begun = 0 from rfl]
    at completes
  simp only [ofStream_eq_ok_iff, completes]
  constructor
  · rintro ⟨document, noFault, last, taken, finished⟩
    exact ⟨noFault, last, document, taken, finished⟩
  · rintro ⟨noFault, last, document, taken, finished⟩
    exact ⟨document, noFault, last, taken, finished⟩

theorem marksAll_of_ofStream (isDocument : ofStream stream = .ok document) :
    Node.marksAll document.nodes = marksOf 0 (stream.events.map Event.kind) := by
  obtain ⟨-, last, taken, finished⟩ := ofStream_eq_ok_iff.mp isDocument
  rw [Construction.marksAll_of_finish finished, Construction.marks_takeAll taken]
  rfl

/-- The document of a stream is the only one with the marks of its events. -/
theorem ofStream_eq_ok_iff_marks :
    ofStream stream = .ok document ↔
      stream.fault = none ∧ Completes 0 0 (stream.events.map Event.kind) ∧
        Node.marksAll document.nodes = marksOf 0 (stream.events.map Event.kind) := by
  constructor
  · intro isDocument
    obtain ⟨noFault, completes⟩ := exists_ofStream_iff.mp ⟨document, isDocument⟩
    exact ⟨noFault, completes, marksAll_of_ofStream isDocument⟩
  · rintro ⟨noFault, completes, sameMarks⟩
    obtain ⟨found, isDocument⟩ := exists_ofStream_iff.mpr ⟨noFault, completes⟩
    have sameNodes := Node.marksAll_injective
      ((marksAll_of_ofStream isDocument).trans sameMarks.symm)
    obtain ⟨nodes⟩ := found
    obtain rfl : nodes = document.nodes := sameNodes
    exact isDocument

/-- Documents. A stream of events gives a document exactly if it has no fault, every closing tag
closes an open element, nothing is open in the end, one element is at top level and text at top
level is blank. The document is then the only one whose marks, in document order, are those of
the events. A text gives the document of the events that its lexemes give one by one. -/
theorem document_lists_its_events :
    (∀ stream : EventStream,
      let kinds := stream.events.map Event.kind
      ((∃ document, ofStream stream = .ok document) ↔
        stream.fault = none ∧ Completes 0 0 kinds) ∧
      ∀ document, ofStream stream = .ok document ↔
        stream.fault = none ∧ Completes 0 0 kinds ∧
          Node.marksAll document.nodes = marksOf 0 kinds) ∧
    ∀ text,
      let scanned := scan (withoutByteOrderMark text.toList)
      ((∃ document, parse text = .ok document) ↔
        scanned.fault = none ∧ ∃ events, GivesAll [] scanned.lexemes events ∧
          Completes 0 0 (events.map Event.kind)) ∧
      ∀ document, parse text = .ok document ↔
        scanned.fault = none ∧ ∃ events, GivesAll [] scanned.lexemes events ∧
          Completes 0 0 (events.map Event.kind) ∧
          Node.marksAll document.nodes = marksOf 0 (events.map Event.kind) := by
  refine ⟨fun stream => ⟨exists_ofStream_iff, fun document => ofStream_eq_ok_iff_marks⟩,
    fun text => ?_⟩
  intro scanned
  have ofText_iff : ∀ holds : List Event → Prop,
      ((EventStream.ofText text).fault = none ∧ holds (EventStream.ofText text).events) ↔
        scanned.fault = none ∧ ∃ events, GivesAll [] scanned.lexemes events ∧ holds events := by
    intro holds
    constructor
    · rintro ⟨noFault, here⟩
      obtain ⟨noScanFault, gives⟩ := EventStream.ofText_eq_iff.mp ⟨noFault, rfl⟩
      exact ⟨noScanFault, _, gives, here⟩
    · rintro ⟨noScanFault, events, gives, here⟩
      obtain ⟨noFault, rfl⟩ := EventStream.ofText_eq_iff.mpr ⟨noScanFault, gives⟩
      exact ⟨noFault, here⟩
  exact ⟨exists_ofStream_iff.trans (ofText_iff fun events =>
      Completes 0 0 (events.map Event.kind)),
    fun document => ofStream_eq_ok_iff_marks.trans (ofText_iff fun events =>
      Completes 0 0 (events.map Event.kind) ∧
        Node.marksAll document.nodes = marksOf 0 (events.map Event.kind))⟩

example :
    (parse "<?xml version='1.0'?>\n<a b='1'><c/>x<?t  d ?></a>\n").toOption.map
        (fun document => Node.marksAll document.nodes) =
      some [.opens (.plain "a") [⟨.plain "b", "1"⟩], .opens (.plain "c") [], .closes, .text "x",
        .instruction "t" "d", .closes] := by
  decide +kernel

end Document

end LivePage.Markup
