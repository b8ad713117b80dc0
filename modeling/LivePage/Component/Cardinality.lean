import LivePage.Dict

/-!
Contract: how often a child may occur.

Owns:
- occurrence ranges and their written form;
- violations and their wording.

Does not own: which children a component declares.
-/

namespace LivePage

/-- A range of counts; without `max` it has no upper end. -/
structure Cardinality where
  min : Nat
  max : Option Nat
deriving DecidableEq, Repr, Inhabited

namespace Cardinality

def unbounded : Cardinality := ⟨0, none⟩

def optional : Cardinality := ⟨0, some 1⟩

def exactly (count : Nat) : Cardinality := ⟨count, some count⟩

def atLeast (min : Nat) : Cardinality := ⟨min, none⟩

def atMost (max : Nat) : Cardinality := ⟨0, some max⟩

/-- Whether a count does not exceed the upper end. -/
def allowsUpTo (cardinality : Cardinality) (count : Nat) : Bool :=
  match cardinality.max with
  | some max => count ≤ max
  | none => true

def contains (cardinality : Cardinality) (count : Nat) : Bool :=
  cardinality.min ≤ count && cardinality.allowsUpTo count

def isRequired (cardinality : Cardinality) : Bool :=
  0 < cardinality.min

def display (cardinality : Cardinality) : String :=
  let upper :=
    match cardinality.max with
    | some max => toString max
    | none => "*"
  "[" ++ toString cardinality.min ++ ".." ++ upper ++ "]"

end Cardinality

/-- A tag whose count lies outside its range. -/
structure CardinalityViolation where
  tag : String
  cardinality : Cardinality
  count : Nat
deriving DecidableEq, Repr

def CardinalityViolation.message (violation : CardinalityViolation) : String :=
  "`" ++ violation.tag ++ "` occurs " ++ toString violation.count ++ " time(s), expected " ++
    violation.cardinality.display

end LivePage
