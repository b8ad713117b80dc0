import LivePage.Proofs.Blueprint.Agreement
import LivePage.Proofs.Blueprint.Extension

/-!
Contract: every instruction is processed where it stands in the text.

Owns:
- the surroundings of a spot in the text: the elements and the documents around it;
- a reading that hands surroundings down along the text, so that it has nothing to put back;
- the reading with a cursor does the same, call for call and failure for failure;
- where the instructions of all calls stand, and the cursor after a call.

Does not own: what handlers do with what they are told.
-/

namespace LivePage

/-! ## Surroundings -/

/-- The elements and documents around a spot in the text, from the innermost outwards. -/
inductive Surroundings where
  /-- The top level of the page that is read. -/
  | page (location : Option Url)
  /-- The content of the root element of a document. -/
  | root (outer : Surroundings)
  /-- The content of another element, which has a number in the page tree. -/
  | element (name : Markup.Name) (number : Nat) (outer : Surroundings)
  /-- The top level of a document whose import stands in the outer surroundings. -/
  | imported (location : Option Url) (outer : Surroundings)

namespace Surroundings

/-- The element of the page tree that belongs to the innermost element. The root element of a
document has none of its own. -/
def enclosing : Surroundings → Nat
  | page _ => PageTree.root
  | root outer => outer.enclosing
  | element _ number _ => number
  | imported _ outer => outer.enclosing

/-- The location of the innermost document. -/
def location : Surroundings → Option Url
  | page location => location
  | root outer => outer.location
  | element _ _ outer => outer.location
  | imported location _ => location

/-- How many imports there are. -/
def imports : Surroundings → Nat
  | page _ => 0
  | root outer => outer.imports
  | element _ _ outer => outer.imports
  | imported _ outer => outer.imports + 1

def cursor (surroundings : Surroundings) : Cursor :=
  ⟨surroundings.enclosing, surroundings.location, surroundings.imports⟩

def isTop : Surroundings → Bool
  | page _ => true
  | root _ => false
  | element _ _ _ => false
  | imported _ _ => true

/-- The nodes that stand directly in given surroundings. -/
inductive Holds (source : PageSource) : Surroundings → List Markup.Node → Prop
  | page {document : Markup.Document} (isDocument : source.document = .ok document) :
      Holds source (.page source.url) document.nodes
  | root {outer : Surroundings} {nodes children : List Markup.Node} {name : Markup.Name}
      (around : Holds source outer nodes) (atTop : outer.isTop = true)
      (member : .element name [] children ∈ nodes) : Holds source (.root outer) children
  | element {outer : Surroundings} {nodes children : List Markup.Node} {name : Markup.Name}
      {attributes : List Markup.Attribute} (number : Nat)
      (around : Holds source outer nodes) (notTop : outer.isTop = false)
      (member : .element name attributes children ∈ nodes) :
      Holds source (.element name number outer) children
  | imported {outer : Surroundings} {nodes : List Markup.Node} {target data : String}
      {other : PageSource} {document : Markup.Document} (around : Holds source outer nodes)
      (member : .instruction target data ∈ nodes) (isDocument : other.document = .ok document) :
      Holds source (.imported other.url outer) document.nodes

/-- The elements are in a page tree under their numbers, each with the definition of its name
and below the element of its own surroundings. -/
def Fits (parser : PageParser) (tree : PageTree) : Surroundings → Prop
  | page _ => True
  | root outer => outer.Fits parser tree
  | element name number outer =>
      outer.Fits parser tree ∧ number < tree.size ∧
        (tree.element number).parent = some outer.enclosing ∧
        ∃ definition arguments,
          parser.elementDefinition name = .ok (some (definition, arguments)) ∧
            (tree.element number).definition = some definition
  | imported _ outer => outer.Fits parser tree

theorem Fits.mono {parser : PageParser} {tree next : PageTree} (extended : tree.ExtendsTo next)
    {surroundings : Surroundings} (fits : surroundings.Fits parser tree) :
    surroundings.Fits parser next := by
  induction surroundings with
  | page _ => trivial
  | root _ inductionHypothesis => exact inductionHypothesis fits
  | imported _ _ inductionHypothesis => exact inductionHypothesis fits
  | element name number outer inductionHypothesis =>
      obtain ⟨outerFits, inside, hasParent, definition, arguments, known, hasDefinition⟩ := fits
      obtain ⟨sameDefinition, sameParent⟩ := extended.kept inside
      exact ⟨inductionHypothesis outerFits, Nat.lt_of_lt_of_le inside extended.size_le,
        sameParent.trans hasParent, definition, arguments, known,
        sameDefinition.trans hasDefinition⟩

end Surroundings

/-- A call of a handler, with the surroundings of its instruction. -/
structure Place where
  surroundings : Surroundings
  target : String
  data : String
  treeSize : Nat

def Place.call (place : Place) : InstructionCall :=
  ⟨place.target, place.data, place.surroundings.cursor, place.treeSize⟩

/-- Whether the instruction of a call stands in its surroundings. -/
def Place.StandsIn (source : PageSource) (place : Place) : Prop :=
  ∃ nodes, place.surroundings.Holds source nodes ∧
    .instruction place.target place.data ∈ nodes

/-! ## Reading without a cursor -/

/-- A page under construction, with the places of the calls made so far. -/
structure Survey where
  tree : PageTree
  places : List Place

/-- The state of a reading with a cursor at the same point. -/
def Survey.stateAt (survey : Survey) (surroundings : Surroundings) : ParseState :=
  ⟨survey.tree, surroundings.cursor, survey.places.map Place.call⟩

/-- A part of a reading that is told its surroundings and cannot change them. -/
abbrev SurveyStep := Surroundings → Survey → Survey × Except ParseError Unit

namespace SurveyStep

def done : SurveyStep := fun _ survey =>
  (survey, .ok ())

def fail (error : ParseError) : SurveyStep := fun _ survey =>
  (survey, .error error)

def andThen (first second : SurveyStep) : SurveyStep := fun surroundings survey =>
  match first surroundings survey with
  | (next, .ok ()) => second surroundings next
  | (next, .error error) => (next, .error error)

/-- A step that is told further surroundings. -/
def within (enter : Surroundings → Surroundings) (step : SurveyStep) : SurveyStep :=
  fun surroundings => step (enter surroundings)

/-- A step that only works on the tree. -/
def building (step : ParseStep) : SurveyStep := fun surroundings survey =>
  let (next, outcome) := step ⟨survey.tree, surroundings.cursor, []⟩
  ({ survey with tree := next.tree }, outcome)

/-- Does what a handler asks for. -/
def ofHandling (graft : PageSource → SurveyStep) : Handling → SurveyStep
  | .done => done
  | .fail error => fail error
  | .look next => fun surroundings survey =>
      ofHandling graft (next survey.tree) surroundings survey
  | .put tree next => fun surroundings survey =>
      ofHandling graft next surroundings { survey with tree := tree }
  | .graft source next => fun surroundings survey =>
      let (grafted, outcome) := graft source surroundings survey
      ofHandling graft (next outcome) surroundings grafted

end SurveyStep

namespace PageParser

open SurveyStep

variable (parser : PageParser) (files : FileSystem) (graft : PageSource → SurveyStep)

/-- Notes the place of a call and runs the handler of the target. -/
def surveyInstruction (target data : String) : SurveyStep := fun surroundings survey =>
  match parser.instructions.get? target with
  | none => (survey, .error (.unknownInstruction target))
  | some handler =>
      ofHandling graft (handler ⟨files, parser.locator, surroundings.cursor⟩ data) surroundings
        { survey with places := survey.places ++ [⟨surroundings, target, data, survey.tree.size⟩] }

/-- An element whose content is read with the element around it. -/
def surveyElement (name : Markup.Name) (definition : Definition) (arguments : List Json)
    (attributes : List Markup.Attribute) (content : SurveyStep) : SurveyStep :=
  fun surroundings survey =>
    ((building (parser.openElement definition arguments attributes)).andThen
      ((content.within (.element name survey.tree.size)).andThen
        (building (ParseStep.check (fun tree => tree.validate survey.tree.size)))))
      surroundings survey

mutual

def surveyNode : Markup.Node → SurveyStep
  | .element name attributes children =>
      match parser.elementDefinition name with
      | .error error => fail error
      | .ok none => done
      | .ok (some (definition, arguments)) =>
          parser.surveyElement name definition arguments attributes (surveyNodes "" children)
  | .instruction target data => parser.surveyInstruction files graft target data
  | _ => done

def surveyNodes (run : String) : List Markup.Node → SurveyStep
  | [] => building (parser.processText run)
  | node :: rest =>
      match runText? node with
      | some text => surveyNodes (run ++ text) rest
      | none =>
          (building (parser.processText run)).andThen
            ((surveyNode node).andThen (surveyNodes "" rest))

end

def surveyRoot (name : Markup.Name) (attributes : List Markup.Attribute)
    (children : List Markup.Node) : SurveyStep :=
  let resolved := parser.tagNamespaces.resolve name
  if resolved ≠ .plain Definition.rootTag then fail (.wrongRoot resolved.normalized)
  else
    match attributes with
    | written :: _ => fail (.unknownAttribute Definition.rootTag written.name.qualified)
    | [] => (parser.surveyNodes files graft "" children).within .root

def surveyTopLevel : Markup.Node → SurveyStep
  | .element name attributes children => parser.surveyRoot files graft name attributes children
  | .instruction target data => parser.surveyInstruction files graft target data
  | .comment _ => done
  | .doctype _ => done
  | .text text =>
      if Text.allBlank text then done else fail (.misplacedNode (Markup.Node.text text).kind)
  | .cdata text =>
      if Text.allBlank text then done else fail (.misplacedNode (Markup.Node.cdata text).kind)

def surveyDocument (nodes : List Markup.Node) : SurveyStep :=
  nodes.foldr (fun node rest => (parser.surveyTopLevel files graft node).andThen rest) done

def surveyGraft : Nat → PageSource → SurveyStep
  | 0, _ => fail .importsTooDeep
  | remaining + 1, source =>
      match source.document with
      | .error reason => fail (.source reason)
      | .ok document =>
          (parser.surveyDocument files (surveyGraft remaining) document.nodes).within
            (.imported source.url)

/-- Reads a source, with the surroundings of all calls. -/
def survey (source : PageSource) : Survey × Except ParseError Unit :=
  match source.document with
  | .error reason => (⟨.empty, []⟩, .error (.source reason))
  | .ok document =>
      parser.surveyDocument files (parser.surveyGraft files importLimit) document.nodes
        (.page source.url) ⟨.empty, []⟩

end PageParser

/-! ## The reading with a cursor -/

namespace ParseStep

/-- A step does the same as one that is told its surroundings, wherever the cursor stands in
these, and leaves the cursor there. -/
def Matches (step : ParseStep) (surveyed : SurveyStep) : Prop :=
  ∀ surroundings survey, step (survey.stateAt surroundings) =
    ((surveyed surroundings survey).1.stateAt surroundings, (surveyed surroundings survey).2)

theorem matches_done : Matches done SurveyStep.done := fun _ _ => rfl

theorem matches_fail (error : ParseError) : Matches (fail error) (SurveyStep.fail error) :=
  fun _ _ => rfl

theorem Matches.andThen {first second : ParseStep} {firstSurveyed secondSurveyed : SurveyStep}
    (firstMatches : first.Matches firstSurveyed) (secondMatches : second.Matches secondSurveyed) :
    (first.andThen second).Matches (firstSurveyed.andThen secondSurveyed) := by
  intro surroundings survey
  unfold ParseStep.andThen SurveyStep.andThen
  rw [firstMatches surroundings survey]
  rcases firstSurveyed surroundings survey with ⟨next, _ | _⟩
  · rfl
  · exact secondMatches surroundings next

/-- A step that builds sees nothing of the surroundings but the enclosing element. -/
theorem Builds.matches {step : ParseStep} (builds : step.Builds) :
    step.Matches (SurveyStep.building step) := by
  intro surroundings survey
  let bare : ParseState := ⟨survey.tree, surroundings.cursor, []⟩
  obtain ⟨sameTree, sameOutcome⟩ := builds.agree bare (survey.stateAt surroundings) rfl rfl
  have sameCursor := builds.cursor_eq (survey.stateAt surroundings)
  have sameCalls := builds.calls_eq (survey.stateAt surroundings)
  unfold SurveyStep.building
  generalize step (survey.stateAt surroundings) = result at *
  obtain ⟨⟨tree, cursor, calls⟩, outcome⟩ := result
  dsimp only at sameTree sameOutcome sameCursor sameCalls
  rw [sameTree, sameOutcome, sameCursor, sameCalls]
  rfl

/-- Moving the cursor and putting it back is being told further surroundings. -/
theorem Matches.movedBy {step : ParseStep} {surveyed : SurveyStep} (matching : step.Matches surveyed)
    {detour : Detour} {enter : Surroundings → Surroundings}
    (moves : ∀ surroundings, detour.go surroundings.cursor = (enter surroundings).cursor) :
    (step.movedBy detour).Matches (surveyed.within enter) := by
  intro surroundings survey
  have moved : ({ survey.stateAt surroundings with cursor := detour.go surroundings.cursor } :
      ParseState) = survey.stateAt (enter surroundings) := by
    rw [moves]
    rfl
  have returned : detour.back surroundings.cursor (enter surroundings).cursor =
      surroundings.cursor := by
    rw [← moves]
    exact detour.back_go surroundings.cursor
  have entered := matching (enter surroundings) survey
  unfold ParseStep.movedBy
  rw [show (survey.stateAt surroundings).cursor = surroundings.cursor from rfl, moved, entered]
  dsimp only [Survey.stateAt]
  rw [returned]
  rfl

end ParseStep

namespace PageParser

open ParseStep

variable {parser : PageParser} {files : FileSystem} {graft : PageSource → ParseStep}
  {surveyedGraft : PageSource → SurveyStep}

theorem matches_runHandling (grafts : ∀ source, (graft source).Matches (surveyedGraft source))
    (handling : Handling) :
    (runHandling graft handling).Matches (SurveyStep.ofHandling surveyedGraft handling) := by
  intro surroundings survey
  induction handling generalizing survey with
  | done => rfl
  | fail error => rfl
  | look next inductionHypothesis => exact inductionHypothesis survey.tree survey
  | put tree next inductionHypothesis => exact inductionHypothesis { survey with tree := tree }
  | graft source next inductionHypothesis =>
      simp only [runHandling, SurveyStep.ofHandling]
      rw [grafts source surroundings survey]
      exact inductionHypothesis _ _

theorem matches_processInstruction
    (grafts : ∀ source, (graft source).Matches (surveyedGraft source)) (target data : String) :
    (parser.processInstruction files graft target data).Matches
      (parser.surveyInstruction files surveyedGraft target data) := by
  intro surroundings survey
  unfold processInstruction surveyInstruction
  cases parser.instructions.get? target with
  | none => rfl
  | some handler =>
      let place : Place := ⟨surroundings, target, data, survey.tree.size⟩
      have noted : ({ survey.stateAt surroundings with
          calls := (survey.stateAt surroundings).calls ++ [place.call] } : ParseState) =
            ({ survey with places := survey.places ++ [place] } : Survey).stateAt surroundings := by
        simp only [Survey.stateAt, List.map_append, List.map_singleton]
      have handled := matches_runHandling grafts
        (handler ⟨files, parser.locator, surroundings.cursor⟩ data) surroundings
        { survey with places := survey.places ++ [place] }
      rw [← noted] at handled
      exact handled

theorem matches_elementStep (name : Markup.Name) (definition : Definition)
    (arguments : List Json) (attributes : List Markup.Attribute) {content : ParseStep}
    {surveyed : SurveyStep} (matching : content.Matches surveyed) :
    (parser.elementStep definition arguments attributes content).Matches
      (parser.surveyElement name definition arguments attributes surveyed) := by
  intro surroundings survey
  have opened := (parser.builds_openElement definition arguments attributes).matches
  have inside : (movedBy (.toElement survey.tree.size)
      content).Matches (surveyed.within (.element name survey.tree.size)) :=
    matching.movedBy (fun _ => rfl)
  have checked := (builds_check (fun tree => tree.validate survey.tree.size)).matches
  exact opened.andThen (inside.andThen checked) surroundings survey

/-- The nodes of a document are read alike, with a cursor and without one. -/
theorem matches_parseNodes (grafts : ∀ source, (graft source).Matches (surveyedGraft source)) :
    (∀ node, (parser.parseNode files graft node).Matches
      (parser.surveyNode files surveyedGraft node)) ∧
    ∀ run nodes, (parser.parseNodes files graft run nodes).Matches
      (parser.surveyNodes files surveyedGraft run nodes) := by
  refine parseNode.mutual_induct _ _ ?_ ?_ ?_ ?_ ?_ ?_
  · intro name attributes children inductionHypothesis
    rw [parseNode_element, surveyNode]
    rcases parser.elementDefinition name with error | (_ | ⟨definition, arguments⟩)
    · exact matches_fail error
    · exact matches_done
    · exact matches_elementStep name definition arguments attributes inductionHypothesis
  · intro target data
    exact matches_processInstruction grafts target data
  · intro node notElement notInstruction
    cases node with
    | element name attributes children => exact (notElement _ _ _ rfl).elim
    | instruction target data => exact (notInstruction _ _ rfl).elim
    | text text => exact matches_done
    | cdata text => exact matches_done
    | comment text => exact matches_done
    | doctype text => exact matches_done
  · intro run
    exact (parser.builds_processText run).matches
  · intro run node rest text isText inductionHypothesis
    rw [parseNodes_text isText, surveyNodes, isText]
    exact inductionHypothesis
  · intro run node rest noText ofNode ofRest
    rw [parseNodes_node noText, surveyNodes, noText]
    exact (parser.builds_processText run).matches.andThen (ofNode.andThen ofRest)

theorem matches_parseTopLevel
    (grafts : ∀ source, (graft source).Matches (surveyedGraft source)) (node : Markup.Node) :
    (parser.parseTopLevel files graft node).Matches
      (parser.surveyTopLevel files surveyedGraft node) := by
  cases node with
  | element name attributes children =>
      simp only [parseTopLevel, parseRoot, surveyTopLevel, surveyRoot]
      split
      · exact matches_fail _
      · cases attributes with
        | cons written rest => exact matches_fail _
        | nil =>
            -- The root element has no element of the tree, so the cursor stays where it is.
            exact fun surroundings survey =>
              (matches_parseNodes grafts).2 "" children (.root surroundings) survey
  | instruction target data => exact matches_processInstruction grafts target data
  | comment text => exact matches_done
  | doctype text => exact matches_done
  | text text =>
      simp only [parseTopLevel, surveyTopLevel]
      split
      · exact matches_done
      · exact matches_fail _
  | cdata text =>
      simp only [parseTopLevel, surveyTopLevel]
      split
      · exact matches_done
      · exact matches_fail _

theorem matches_parseDocument
    (grafts : ∀ source, (graft source).Matches (surveyedGraft source))
    (document : Markup.Document) :
    (parser.parseDocument files graft document).Matches
      (parser.surveyDocument files surveyedGraft document.nodes) := by
  unfold parseDocument surveyDocument
  induction document.nodes with
  | nil => exact matches_done
  | cons node rest inductionHypothesis =>
      exact (matches_parseTopLevel grafts node).andThen inductionHypothesis

theorem matches_graft (remaining : Nat) (source : PageSource) :
    (parser.graft files remaining source).Matches
      (parser.surveyGraft files remaining source) := by
  induction remaining generalizing source with
  | zero => exact matches_fail _
  | succ remaining inductionHypothesis =>
      rw [graft, surveyGraft]
      cases source.document with
      | error reason => exact matches_fail _
      | ok document =>
          exact (matches_parseDocument inductionHypothesis document).movedBy (fun _ => rfl)

theorem run_eq_survey (parser : PageParser) (files : FileSystem) (source : PageSource) :
    parser.run files source =
      ((parser.survey files source).1.stateAt (.page source.url),
        (parser.survey files source).2) := by
  unfold run survey
  cases source.document with
  | error reason => rfl
  | ok document =>
      exact matches_parseDocument (matches_graft importLimit) document (.page source.url)
        ⟨.empty, []⟩

end PageParser

end LivePage
