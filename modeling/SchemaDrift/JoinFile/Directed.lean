/-
  SchemaDrift/JoinFile/Directed.lean
  ==================================
  **Relationships written one direction at a time.**

  The older form of a join file writes each direction of a relationship as an element
  of its own.  `Directed.toJoins` makes joins of them: every direction is put together
  with the first later one that runs the other way over the same columns.  Where the
  other direction is missing it is implied: it is to-one when the direction at hand is
  to-many or leads to a dependent key, and to-many otherwise.  The joins come out in
  canonical orientation, in the order in which their first direction was met.
-/
import SchemaDrift.Join.Orientation

namespace SchemaDrift

/-- One direction of a relationship. -/
structure Directed where
  source : String
  target : String
  name : Option String
  toMany : Bool
  toDependentKey : Bool
  /-- Pairs of columns, the one of the source on the left. -/
  pairs : List ColumnPair := []
deriving Repr, DecidableEq

namespace Directed

/-- Whether two pairs of columns are the same with their sides exchanged. -/
def oppositePairs (a b : ColumnPair) : Bool := sameName a.left b.right && sameName a.right b.left

/-- Whether a direction runs the other way: between the same tables, over as many pairs, each of
    which is a pair of the other direction turned round. -/
def isReverseOf (r other : Directed) : Bool :=
  sameName r.source other.target && sameName r.target other.source &&
    r.pairs.length == other.pairs.length &&
    r.pairs.all fun pair => other.pairs.any (oppositePairs pair)

/-- The join of a direction and of the one that runs the other way, if it is there. -/
def toJoin (forward : Directed) (back : Option Directed) : Except SchemaError Join := do
  let (backToMany, backToDependent, backName) := match back with
    | some r => (r.toMany, r.toDependentKey, r.name)
    | none => (!forward.toMany && !forward.toDependentKey, false, none)
  let dependentKey ← DependentKey.ofFlags forward.toDependentKey backToDependent
  let join ← Join.ofPairs ⟨forward.source, forward.target⟩ ⟨forward.name, backName⟩
    (.ofFlags forward.toMany backToMany) dependentKey forward.pairs
  return join.normalize

/-- The joins of directions. -/
def toJoins : List Directed → Except SchemaError (List Join)
  | [] => .ok []
  | forward :: rest => do
    let join ← forward.toJoin (rest.find? (·.isReverseOf forward))
    let joins ← toJoins (rest.eraseP (·.isReverseOf forward))
    return join :: joins
termination_by directions => directions.length
decreasing_by exact Nat.lt_succ_of_le List.length_eraseP_le

end Directed

end SchemaDrift
