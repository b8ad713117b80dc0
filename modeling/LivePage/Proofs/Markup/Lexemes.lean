import LivePage.Markup.Event

/-!
Contract: the events of a text and the lexemes that they come from.

Owns:
- what a tag gives: its name, and its attributes but for the declarations of namespaces;
- the event that each lexeme gives, where elements are open;
- a stream without a fault is one event for each lexeme.

Does not own: the split of a text into lexemes, and trees.
-/

namespace LivePage.Markup

theorem map_eq_ok_iff {ε : Type u} {α : Type v} {β : Type w} {change : α → β}
    {result : Except ε α} {value : β} :
    result.map change = .ok value ↔ ∃ before, result = .ok before ∧ change before = value := by
  cases result <;> simp [Except.map]

/-! ## Attributes -/

def WrittenAttribute.isDeclaration (written : WrittenAttribute) : Bool :=
  (declaredQualifier? written.key).isSome

/-- What a written attribute stands for: its name as it is resolved, and its value without
references. -/
def WrittenAttribute.reading (scope : Scope) (written : WrittenAttribute) :
    Name × Except EntityFault (List Char) :=
  (scope.resolve .unbound written.key, unescape written.value)

def Attribute.reading (given : Attribute) : Name × Except EntityFault (List Char) :=
  (given.name, .ok given.value.toList)

/-- Attributes, each of which is written once. -/
def Distinct (written : List WrittenAttribute) : Prop :=
  written.Pairwise fun first second => first.key ≠ second.key

/-- Attributes are what the written ones that are no declarations stand for, in their order. -/
def Rendered (scope : Scope) (written : List WrittenAttribute) (attributes : List Attribute) :
    Prop :=
  (written.filter fun one => !one.isDeclaration).map (WrittenAttribute.reading scope) =
    attributes.map Attribute.reading

section Resolve

variable {scope : Scope} {fault : Option WrittenFault} {earlier rest : List WrittenAttribute}
  {written : WrittenAttribute} {attributes : List Attribute}

theorem rendered_cons_of_declaration (isDeclaration : written.isDeclaration = true) :
    Rendered scope (written :: rest) attributes ↔ Rendered scope rest attributes := by
  rw [Rendered, List.filter_cons_of_neg (by simp [isDeclaration]), Rendered]

theorem rendered_cons (notDeclaration : written.isDeclaration = false) :
    Rendered scope (written :: rest) attributes ↔
      ∃ value others, unescape written.value = .ok value ∧ Rendered scope rest others ∧
        attributes =
          ⟨scope.resolve .unbound written.key, String.ofList value⟩ :: others := by
  rw [Rendered, List.filter_cons_of_pos (by simp [notDeclaration]), List.map_cons]
  constructor
  · intro same
    obtain ⟨⟨name, value⟩, others, rfl, isFirst, isRest⟩ := List.map_eq_cons_iff.mp same.symm
    obtain ⟨rfl, isValue⟩ := Prod.mk.inj isFirst
    exact ⟨_, others, isValue.symm, isRest.symm, by rw [String.ofList_toList]⟩
  · rintro ⟨value, others, isValue, isRest, rfl⟩
    rw [List.map_cons, isRest, WrittenAttribute.reading, Attribute.reading, isValue,
      String.toList_ofList]

theorem duplicateOf_eq_none_iff {key : List Char} :
    duplicateOf earlier key = none ↔ ∀ written ∈ earlier, written.key ≠ key := by
  simp [duplicateOf]

/-- The attributes of a tag are what is written in it, if that has no fault and nothing is
written twice. -/
theorem resolveAttributes_eq_ok_iff (distinct : Distinct earlier) :
    resolveAttributes scope fault earlier rest = .ok attributes ↔
      fault = none ∧ Distinct (earlier ++ rest) ∧ Rendered scope rest attributes := by
  induction rest generalizing earlier attributes with
  | nil =>
      unfold resolveAttributes
      rw [List.append_nil]
      constructor
      · intro resolved
        cases fault with
        | some fault =>
            dsimp only at resolved
            split at resolved <;> cases resolved
        | none =>
            cases resolved
            exact ⟨rfl, distinct, rfl⟩
      · rintro ⟨rfl, -, same⟩
        rw [List.map_eq_nil_iff.mp same.symm]
  | cons written rest inductionHypothesis =>
      rw [resolveAttributes]
      cases isDuplicate : duplicateOf earlier written.key with
      | some previous =>
          refine ⟨nofun, fun ⟨_, distinctAll, _⟩ => ?_⟩
          have isNew : ∀ first ∈ earlier, first.key ≠ written.key := fun first member =>
            (List.pairwise_append.mp distinctAll).2.2 first member written (.head _)
          rw [duplicateOf_eq_none_iff.mpr isNew] at isDuplicate
          cases isDuplicate
      | none =>
          have isNew := duplicateOf_eq_none_iff.mp isDuplicate
          have distinctNow : Distinct (earlier ++ [written]) :=
            List.pairwise_append.mpr ⟨distinct, List.pairwise_singleton _ _,
              fun first member second isLast =>
                List.mem_singleton.mp isLast ▸ isNew first member⟩
          have ofRest := fun others =>
            @inductionHypothesis (earlier ++ [written]) others distinctNow
          rw [List.append_assoc, List.singleton_append] at ofRest
          cases isDeclaration : written.isDeclaration with
          | true =>
              rw [rendered_cons_of_declaration isDeclaration, ← ofRest attributes]
              exact Eq.to_iff (congrArg (· = _) (if_pos isDeclaration))
          | false =>
              rw [rendered_cons isDeclaration]
              dsimp only
              rw [if_neg (Bool.not_eq_true _ ▸ isDeclaration)]
              cases isValue : unescape written.value with
              | error reason => simp
              | ok value =>
                  constructor
                  · intro resolved
                    obtain ⟨others, isRest, rfl⟩ := map_eq_ok_iff.mp resolved
                    obtain ⟨noFault, distinctAll, rendered⟩ := (ofRest others).mp isRest
                    exact ⟨noFault, distinctAll, value, others, rfl, rendered, rfl⟩
                  · rintro ⟨noFault, distinctAll, _, others, ⟨⟩, rendered, rfl⟩
                    rw [(ofRest others).mpr ⟨noFault, distinctAll, rendered⟩]
                    rfl

end Resolve

/-! ## Events -/

/-- What a tag gives where a scope holds: the scope inside, its name and its attributes. -/
structure TagGives (outer : Scope) (content : List Char) (inner : Scope) (name : Name)
    (attributes : List Attribute) : Prop where
  declared : outer.declareAll (tagAttributes content).attributes = .ok inner
  noFault : (tagAttributes content).fault = none
  distinct : Distinct (tagAttributes content).attributes
  name_eq : name = inner.resolve inner.defaultBinding (tagName content)
  rendered : Rendered inner (tagAttributes content).attributes attributes

theorem resolveTag_eq_ok_iff {outer inner : Scope} {content : List Char} {start stop : Nat}
    {name : Name} {attributes : List Attribute} :
    resolveTag outer content start stop = .ok (inner, name, attributes) ↔
      TagGives outer content inner name attributes := by
  unfold resolveTag
  dsimp only
  cases declared : outer.declareAll (tagAttributes content).attributes with
  | error cause => exact ⟨nofun, fun gives => nomatch declared.symm.trans gives.declared⟩
  | ok scope =>
      dsimp only
      constructor
      · intro resolved
        split at resolved
        · cases resolved
        · next isResolved =>
            cases resolved
            obtain ⟨noFault, distinct, rendered⟩ :=
              (resolveAttributes_eq_ok_iff List.Pairwise.nil).mp isResolved
            exact ⟨declared, noFault, distinct, rfl, rendered⟩
      · rintro ⟨isInner, noFault, distinct, rfl, rendered⟩
        obtain rfl := Except.ok.inj (declared.symm.trans isInner)
        rw [(resolveAttributes_eq_ok_iff List.Pairwise.nil).mpr ⟨noFault, distinct, rendered⟩]

/-- The event that a token gives where elements are open, and the elements open behind it. -/
inductive Gives : OpenTags → Token → EventKind → OpenTags → Prop
  | openTag {openTags : OpenTags} {content : List Char} {inner : Scope} {name : Name}
      {attributes : List Attribute}
      (tag : TagGives openTags.scope content inner name attributes) :
      Gives openTags (.openTag content) (.enter name attributes)
        ((tagName content, inner) :: openTags)
  | emptyTag {openTags : OpenTags} {content : List Char} {inner : Scope} {name : Name}
      {attributes : List Attribute}
      (tag : TagGives openTags.scope content inner name attributes) :
      Gives openTags (.emptyTag content) (.leaf name attributes) openTags
  | closeTag (name : List Char) (scope : Scope) (outer : OpenTags) :
      Gives ((name, scope) :: outer) (.closeTag name) .leave outer
  | text {openTags : OpenTags} {raw meant : List Char} (unescaped : unescape raw = .ok meant) :
      Gives openTags (.text raw) (.text (String.ofList meant)) openTags
  | cdata (openTags : OpenTags) (content : List Char) :
      Gives openTags (.cdata content) (.cdata (String.ofList content)) openTags
  | comment (openTags : OpenTags) (content : List Char) :
      Gives openTags (.comment content) (.comment (String.ofList content)) openTags
  | instruction (openTags : OpenTags) (content : List Char) :
      Gives openTags (.instruction content) (.instruction (String.ofList content)) openTags
  | declaration (openTags : OpenTags) (content : List Char) :
      Gives openTags (.declaration content) .declaration openTags
  | doctype (openTags : OpenTags) (content : List Char) :
      Gives openTags (.doctype content) (.doctype (String.ofList content)) openTags

theorem eventOf_eq_ok_iff {openTags inside : OpenTags} {lexeme : Lexeme} {kind : EventKind} :
    eventOf openTags lexeme = .ok (kind, inside) ↔ Gives openTags lexeme.token kind inside := by
  obtain ⟨token, start, stop⟩ := lexeme
  constructor
  · intro isEvent
    unfold eventOf at isEvent
    dsimp only at isEvent ⊢
    cases token with
    | openTag content =>
        obtain ⟨⟨inner, name, attributes⟩, resolved, ⟨⟩⟩ := map_eq_ok_iff.mp isEvent
        exact .openTag (resolveTag_eq_ok_iff.mp resolved)
    | emptyTag content =>
        obtain ⟨⟨inner, name, attributes⟩, resolved, ⟨⟩⟩ := map_eq_ok_iff.mp isEvent
        exact .emptyTag (resolveTag_eq_ok_iff.mp resolved)
    | closeTag name =>
        dsimp only at isEvent
        split at isEvent
        · cases isEvent
        · next expected scope outer =>
            split at isEvent
            · next same =>
                cases isEvent
                cases same
                exact .closeTag name scope inside
            · cases isEvent
    | text raw =>
        dsimp only at isEvent
        split at isEvent
        · cases isEvent
        · next meant unescaped =>
            cases isEvent
            exact .text unescaped
    | cdata content =>
        cases isEvent
        exact .cdata _ content
    | comment content =>
        cases isEvent
        exact .comment _ content
    | instruction content =>
        cases isEvent
        exact .instruction _ content
    | declaration content =>
        cases isEvent
        exact .declaration _ content
    | doctype content =>
        cases isEvent
        exact .doctype _ content
  · intro gives
    dsimp only at gives
    cases gives with
    | openTag tag => exact map_eq_ok_iff.mpr ⟨_, resolveTag_eq_ok_iff.mpr tag, rfl⟩
    | emptyTag tag => exact map_eq_ok_iff.mpr ⟨_, resolveTag_eq_ok_iff.mpr tag, rfl⟩
    | closeTag name scope outer => exact if_pos rfl
    | text unescaped => simp only [eventOf, unescaped]
    | cdata content => rfl
    | comment content => rfl
    | instruction content => rfl
    | declaration content => rfl
    | doctype content => rfl

/-- Events that lexemes give one by one. -/
inductive GivesAll : OpenTags → List Lexeme → List Event → Prop
  | nil (openTags : OpenTags) : GivesAll openTags [] []
  | cons {openTags inside : OpenTags} {lexeme : Lexeme} {kind : EventKind}
      {lexemes : List Lexeme} {events : List Event}
      (first : Gives openTags lexeme.token kind inside) (rest : GivesAll inside lexemes events) :
      GivesAll openTags (lexeme :: lexemes) (⟨lexeme.start, kind⟩ :: events)

theorem eventsOf_eq_iff {openTags : OpenTags} {lexemes : List Lexeme} {events : List Event} :
    eventsOf openTags lexemes = (events, none) ↔ GivesAll openTags lexemes events := by
  constructor
  · intro isAll
    induction lexemes generalizing openTags events with
    | nil =>
        cases isAll
        exact .nil openTags
    | cons lexeme rest inductionHypothesis =>
        rw [eventsOf] at isAll
        split at isAll
        · cases isAll
        · next kind inside isEvent =>
            obtain ⟨rfl, noFault⟩ := Prod.mk.inj isAll
            exact .cons (eventOf_eq_ok_iff.mp isEvent) (inductionHypothesis (Prod.ext rfl noFault))
  · intro givesAll
    induction givesAll with
    | nil openTags => rfl
    | cons first rest inductionHypothesis =>
        rw [eventsOf, eventOf_eq_ok_iff.mpr first]
        dsimp only
        rw [inductionHypothesis]

/-- The events of a text without a fault are what its lexemes give. -/
theorem EventStream.ofText_eq_iff {text : String} {events : List Event} :
    (ofText text).fault = none ∧ (ofText text).events = events ↔
      (scan (withoutByteOrderMark text.toList)).fault = none ∧
        GivesAll [] (scan (withoutByteOrderMark text.toList)).lexemes events := by
  rw [← eventsOf_eq_iff]
  unfold ofText
  dsimp only
  generalize scan (withoutByteOrderMark text.toList) = scanned
  cases all : eventsOf [] scanned.lexemes with
  | mk found fault =>
      cases fault with
      | some malformed => simp
      | none => simp

end LivePage.Markup
