import LivePage.Proofs.Blueprint.Surroundings

/-!
Contract: what a handler is told about the place of its instruction.

Owns:
- the instruction of every call stands in the surroundings of the call, and their elements
  are in the page tree;
- what has to be put back after the content of an element and after an imported document;
- the place of every call, and the cursor after every call.

Does not own: the reading that is told its surroundings.
-/

namespace LivePage

/-! ## Accurate places -/

namespace Survey

/-- All instructions stand in the surroundings of their calls. If the handlers only extend the
tree, the elements around the instructions are still in it. -/
structure Accurate (parser : PageParser) (source : PageSource) (survey : Survey) : Prop where
  stand : ∀ place ∈ survey.places, place.StandsIn source
  fit : parser.HandlersExtend → ∀ place ∈ survey.places,
    place.surroundings.Fits parser survey.tree

/-- A later point of a reading, which is accurate and has lost no element. -/
structure Leads (parser : PageParser) (source : PageSource) (survey next : Survey) : Prop where
  accurate : next.Accurate parser source
  extended : parser.HandlersExtend → survey.tree.ExtendsTo next.tree

variable {parser : PageParser} {source : PageSource}

theorem Leads.refl {survey : Survey} (accurate : survey.Accurate parser source) :
    survey.Leads parser source survey :=
  ⟨accurate, fun _ => .refl survey.tree⟩

theorem Leads.trans {first second third : Survey} (before : first.Leads parser source second)
    (after : second.Leads parser source third) : first.Leads parser source third :=
  ⟨after.accurate, fun handlers => (before.extended handlers).trans (after.extended handlers)⟩

theorem Accurate.extend {survey : Survey} (accurate : survey.Accurate parser source)
    {tree : PageTree} (extended : parser.HandlersExtend → survey.tree.ExtendsTo tree) :
    survey.Leads parser source { survey with tree := tree } where
  accurate :=
    { stand := accurate.stand
      fit := fun handlers place member =>
        (accurate.fit handlers place member).mono (extended handlers) }
  extended := extended

theorem Accurate.note {survey : Survey} (accurate : survey.Accurate parser source) {place : Place}
    (stands : place.StandsIn source)
    (fits : parser.HandlersExtend → place.surroundings.Fits parser survey.tree) :
    survey.Leads parser source { survey with places := survey.places ++ [place] } where
  accurate :=
    { stand := by
        intro other member
        rcases List.mem_append.mp member with isOld | isNew
        · exact accurate.stand other isOld
        · rw [List.mem_singleton.mp isNew]
          exact stands
      fit := by
        intro handlers other member
        rcases List.mem_append.mp member with isOld | isNew
        · exact accurate.fit handlers other isOld
        · rw [List.mem_singleton.mp isNew]
          exact fits handlers }
  extended := fun _ => .refl survey.tree

end Survey

namespace SurveyStep

/-- A step that stays accurate in surroundings that are in the tree. -/
def Accurate (parser : PageParser) (source : PageSource) (surroundings : Surroundings)
    (step : SurveyStep) : Prop :=
  ∀ survey : Survey, survey.Accurate parser source →
    (parser.HandlersExtend → surroundings.Fits parser survey.tree) →
    survey.Leads parser source (step surroundings survey).1

variable {parser : PageParser} {source : PageSource} {surroundings : Surroundings}

theorem accurate_done : done.Accurate parser source surroundings :=
  fun _ accurate _ => .refl accurate

theorem accurate_fail (error : ParseError) :
    (fail error).Accurate parser source surroundings :=
  fun _ accurate _ => .refl accurate

theorem building_eq_ok_iff {step : ParseStep} {survey next : Survey} :
    building step surroundings survey = (next, .ok ()) ↔
      ∃ last, step ⟨survey.tree, surroundings.cursor, []⟩ = (last, .ok ()) ∧
        next = { survey with tree := last.tree } := by
  unfold building
  rcases step ⟨survey.tree, surroundings.cursor, []⟩ with ⟨last, _ | _⟩ <;> simp [eq_comm]

theorem accurate_building {step : ParseStep} (extending : step.Extends) :
    (building step).Accurate parser source surroundings :=
  fun survey accurate _ =>
    accurate.extend (fun _ => extending ⟨survey.tree, surroundings.cursor, []⟩)

/-- A second step may rely on what the first one achieved. -/
theorem leads_andThen {first second : SurveyStep} {survey : Survey}
    (firstLeads : survey.Leads parser source (first surroundings survey).1)
    (secondLeads : ∀ next, first surroundings survey = (next, .ok ()) →
      survey.Leads parser source next →
        next.Leads parser source (second surroundings next).1) :
    survey.Leads parser source (first.andThen second surroundings survey).1 := by
  unfold SurveyStep.andThen
  generalize first surroundings survey = result at firstLeads secondLeads ⊢
  rcases result with ⟨next, _ | _⟩
  · exact firstLeads
  · exact firstLeads.trans (secondLeads next rfl firstLeads)

theorem Accurate.andThen {first second : SurveyStep}
    (firstAccurate : first.Accurate parser source surroundings)
    (secondAccurate : second.Accurate parser source surroundings) :
    (first.andThen second).Accurate parser source surroundings :=
  fun survey accurate fits => leads_andThen (firstAccurate survey accurate fits)
    (fun next _ before => secondAccurate next before.accurate
      (fun handlers => (fits handlers).mono (before.extended handlers)))

/-- Whatever a handling grafts is accurate, and what it puts extends the tree. -/
theorem accurate_ofHandling {graft : PageSource → SurveyStep}
    (grafts : ∀ other, (graft other).Accurate parser source surroundings) (handling : Handling)
    {survey : Survey} (accurate : survey.Accurate parser source)
    (fits : parser.HandlersExtend → surroundings.Fits parser survey.tree)
    (extending : parser.HandlersExtend → handling.Extends survey.tree) :
    survey.Leads parser source (ofHandling graft handling surroundings survey).1 := by
  induction handling generalizing survey with
  | done => exact .refl accurate
  | fail error => exact .refl accurate
  | look next inductionHypothesis =>
      exact inductionHypothesis survey.tree accurate fits extending
  | put tree next inductionHypothesis =>
      have changed := accurate.extend (fun handlers => (extending handlers).1)
      exact changed.trans (inductionHypothesis changed.accurate
        (fun handlers => (fits handlers).mono (changed.extended handlers))
        (fun handlers => (extending handlers).2))
  | graft other next inductionHypothesis =>
      have grafted := grafts other survey accurate fits
      exact grafted.trans (inductionHypothesis _ grafted.accurate
        (fun handlers => (fits handlers).mono (grafted.extended handlers))
        (fun handlers => extending handlers _ _ (grafted.extended handlers)))

end SurveyStep

namespace PageParser

open SurveyStep

variable {parser : PageParser} {files : FileSystem} {source : PageSource}
  {graft : PageSource → SurveyStep}

/-- Grafts are accurate wherever an instruction stands. -/
def GraftsAccurate (parser : PageParser) (source : PageSource) (graft : PageSource → SurveyStep) :
    Prop :=
  ∀ place : Place, place.StandsIn source → ∀ other,
    (graft other).Accurate parser source place.surroundings

theorem accurate_surveyInstruction (grafts : parser.GraftsAccurate source graft)
    {surroundings : Surroundings} {nodes : List Markup.Node} {target data : String}
    (holds : surroundings.Holds source nodes) (member : .instruction target data ∈ nodes) :
    (parser.surveyInstruction files graft target data).Accurate parser source surroundings := by
  intro survey accurate fits
  unfold surveyInstruction
  split
  · exact .refl accurate
  · next handler known =>
      let place : Place := ⟨surroundings, target, data, survey.tree.size⟩
      have stands : place.StandsIn source := ⟨nodes, holds, member⟩
      have noted := accurate.note stands fits
      exact noted.trans (accurate_ofHandling (grafts place stands) _ noted.accurate fits
        (fun handlers => handlers target handler known _ _ _))

/-- The content of an element is read with its new number around it. -/
theorem accurate_surveyElement {name : Markup.Name} {definition : Definition}
    {arguments : List Json} (known : parser.elementDefinition name = .ok (some (definition, arguments)))
    (attributes : List Markup.Attribute) {surroundings : Surroundings} {content : SurveyStep}
    (contentAccurate : ∀ number, content.Accurate parser source (.element name number surroundings)) :
    (parser.surveyElement name definition arguments attributes content).Accurate parser source
      surroundings := by
  intro survey accurate fits
  refine leads_andThen (accurate_building (extends_openElement _ _ _) survey accurate fits) ?_
  intro opened isOpened before
  have outerFits : parser.HandlersExtend → surroundings.Fits parser opened.tree :=
    fun handlers => (fits handlers).mono (before.extended handlers)
  have contentFits : parser.HandlersExtend →
      (Surroundings.element name survey.tree.size surroundings).Fits parser opened.tree := by
    obtain ⟨last, succeeded, rfl⟩ := building_eq_ok_iff.mp isOpened
    obtain ⟨inside, isDefined, isPlaced⟩ := element_of_openElement succeeded
    exact fun handlers => ⟨outerFits handlers, inside, isPlaced, definition, arguments, known,
      isDefined⟩
  refine leads_andThen (contentAccurate survey.tree.size opened before.accurate contentFits) ?_
  intro filled _ during
  exact accurate_building (ParseStep.extends_check _) filled during.accurate
    (fun handlers => (outerFits handlers).mono (during.extended handlers))

/-- The nodes of an element are read accurately, if they stand in its surroundings. -/
theorem accurate_surveyNodes (grafts : parser.GraftsAccurate source graft) :
    (∀ node, ∀ {surroundings : Surroundings} {all : List Markup.Node},
      surroundings.Holds source all → surroundings.isTop = false → node ∈ all →
        (parser.surveyNode files graft node).Accurate parser source surroundings) ∧
    ∀ run nodes, ∀ {surroundings : Surroundings} {all : List Markup.Node},
      surroundings.Holds source all → surroundings.isTop = false → nodes ⊆ all →
        (parser.surveyNodes files graft run nodes).Accurate parser source surroundings := by
  have text : ∀ run {surroundings : Surroundings},
      (building (parser.processText run)).Accurate parser source surroundings :=
    fun run _ => accurate_building (extends_processText run)
  refine surveyNode.mutual_induct parser _ _ ?_ ?_ ?_ ?_ ?_ ?_ ?_ ?_
  · intro name attributes children error known surroundings all _ _ _
    simp only [surveyNode, known]
    exact accurate_fail error
  · intro name attributes children known surroundings all _ _ _
    simp only [surveyNode, known]
    exact accurate_done
  · intro name attributes children definition arguments known inductionHypothesis
      surroundings all holds notTop member
    simp only [surveyNode, known]
    exact accurate_surveyElement known attributes (fun number =>
      inductionHypothesis (.element number holds notTop member) rfl (List.Subset.refl _))
  · intro target data surroundings all holds _ member
    exact accurate_surveyInstruction grafts holds member
  · intro node notElement notInstruction surroundings all _ _ _
    cases node with
    | element name attributes children => exact (notElement _ _ _ rfl).elim
    | instruction target data => exact (notInstruction _ _ rfl).elim
    | text text => exact accurate_done
    | cdata text => exact accurate_done
    | comment text => exact accurate_done
    | doctype text => exact accurate_done
  · intro run surroundings all _ _ _
    exact text run
  · intro run node rest content isText inductionHypothesis surroundings all holds notTop included
    rw [surveyNodes, isText]
    exact inductionHypothesis holds notTop (List.subset_of_cons_subset included)
  · intro run node rest noText ofNode ofRest surroundings all holds notTop included
    rw [surveyNodes, noText]
    exact (text run).andThen ((ofNode holds notTop (included List.mem_cons_self)).andThen
      (ofRest holds notTop (List.subset_of_cons_subset included)))

theorem accurate_surveyTopLevel (grafts : parser.GraftsAccurate source graft)
    {surroundings : Surroundings} {nodes : List Markup.Node} {node : Markup.Node}
    (holds : surroundings.Holds source nodes) (atTop : surroundings.isTop = true)
    (member : node ∈ nodes) :
    (parser.surveyTopLevel files graft node).Accurate parser source surroundings := by
  cases node with
  | element name attributes children =>
      simp only [surveyTopLevel, surveyRoot]
      split
      · exact accurate_fail _
      · cases attributes with
        | cons written rest => exact accurate_fail _
        | nil =>
            exact (accurate_surveyNodes grafts).2 "" children (.root holds atTop member) rfl
              (List.Subset.refl _)
  | instruction target data => exact accurate_surveyInstruction grafts holds member
  | comment text => exact accurate_done
  | doctype text => exact accurate_done
  | text text =>
      simp only [surveyTopLevel]
      split
      · exact accurate_done
      · exact accurate_fail _
  | cdata text =>
      simp only [surveyTopLevel]
      split
      · exact accurate_done
      · exact accurate_fail _

theorem accurate_surveyDocument (grafts : parser.GraftsAccurate source graft)
    {surroundings : Surroundings} {all : List Markup.Node}
    (holds : surroundings.Holds source all) (atTop : surroundings.isTop = true) :
    (parser.surveyDocument files graft all).Accurate parser source surroundings := by
  have general : ∀ nodes, nodes ⊆ all →
      (parser.surveyDocument files graft nodes).Accurate parser source surroundings := by
    intro nodes included
    induction nodes with
    | nil => exact accurate_done
    | cons node rest inductionHypothesis =>
        exact (accurate_surveyTopLevel grafts holds atTop (included List.mem_cons_self)).andThen
          (inductionHypothesis (List.subset_of_cons_subset included))
  exact general all (List.Subset.refl _)

theorem accurate_surveyGraft (remaining : Nat) :
    parser.GraftsAccurate source (parser.surveyGraft files remaining) := by
  induction remaining with
  | zero => exact fun _ _ _ => accurate_fail _
  | succ remaining inductionHypothesis =>
      rintro place ⟨nodes, holds, member⟩ other
      rw [surveyGraft]
      split
      · exact accurate_fail _
      · next document isDocument =>
          -- The elements around an imported document are those around its import.
          intro survey accurate fits
          exact accurate_surveyDocument inductionHypothesis (.imported holds member isDocument) rfl
            survey accurate fits

theorem accurate_survey (parser : PageParser) (files : FileSystem) (source : PageSource) :
    (parser.survey files source).1.Accurate parser source := by
  have empty : Survey.Accurate parser source ⟨.empty, []⟩ :=
    ⟨fun _ member => absurd member List.not_mem_nil,
      fun _ _ member => absurd member List.not_mem_nil⟩
  unfold survey
  split
  · exact empty
  · next document isDocument =>
      exact (accurate_surveyDocument (accurate_surveyGraft importLimit) (.page isDocument) rfl _
        empty (fun _ => trivial)).accurate

/-- Every handler is told where its instruction stands in the text: the reading of a page does
what the reading does that is handed the surroundings along the text. The instructions of all
calls stand in the surroundings of the calls, and the elements around them are in the page tree
unless handlers take them out. Whatever comes of an instruction, the cursor is where it was, and
an import sees nothing of it but the location of the document that the import stands in. -/
theorem instructions_are_processed_in_place (parser : PageParser) (files : FileSystem)
    (source : PageSource) :
    let (survey, outcome) := parser.survey files source
    parser.run files source =
        (⟨survey.tree, (Surroundings.page source.url).cursor, survey.places.map Place.call⟩,
          outcome) ∧
      (∀ place ∈ survey.places,
        place.StandsIn source ∧ place.call.cursor = place.surroundings.cursor ∧
          (parser.HandlersExtend → place.surroundings.Fits parser survey.tree)) ∧
      (∀ remaining target data state,
        (parser.processInstruction files (parser.graft files remaining) target data
          state).1.cursor = state.cursor) ∧
      ∀ (locator : Option Locator) (cursor other : Cursor) (data : String),
        other.base = cursor.base →
          Instruction.importHandler ⟨files, locator, other⟩ data =
            Instruction.importHandler ⟨files, locator, cursor⟩ data := by
  have accurate := accurate_survey parser files source
  refine ⟨run_eq_survey parser files source, ?_, ?_, ?_⟩
  · intro place member
    exact ⟨accurate.stand place member, rfl, fun handlers => accurate.fit handlers place member⟩
  · intro remaining target data state
    exact keeps_processInstruction (parser.keeps_graft files remaining) target data state
  · intro locator cursor other data sameBase
    unfold Instruction.importHandler
    rw [Instruction.importedSource_of_base sameBase]

end PageParser

end LivePage
