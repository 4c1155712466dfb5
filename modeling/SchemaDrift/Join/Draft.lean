/-
  SchemaDrift/Join/Draft.lean
  ===========================
  **Joins under construction.**

  A draft collects the parts of a join as they are met, in any order, and
  `Draft.finish` turns it into a join.  Nothing is assumed for a part that is
  missing: the first one, in the order left entity, right entity, cardinality,
  dependence, column pairs, is reported.  Names are the only parts that may be absent.
-/
import SchemaDrift.Join.Basic

namespace SchemaDrift

/-- The parts of a join that are known so far. -/
structure Draft where
  left : Option String := none
  right : Option String := none
  leftName : Option String := none
  rightName : Option String := none
  cardinality : Option Cardinality := none
  dependentKey : Option DependentKey := none
  pairs : List ColumnPair := []
deriving Repr, DecidableEq, Inhabited

namespace Draft

def require {α : Type} (fault : ConfigurationFault) : Option α → Except SchemaError α
  | some part => .ok part
  | none => .error (.configuration fault)

def finish (d : Draft) : Except SchemaError Join := do
  let left ← require .missingLeftEntity d.left
  let right ← require .missingRightEntity d.right
  let cardinality ← require .missingCardinality d.cardinality
  let dependentKey ← require .missingDependence d.dependentKey
  Join.ofPairs ⟨left, right⟩ ⟨d.leftName, d.rightName⟩ cardinality dependentKey d.pairs

end Draft

end SchemaDrift
