/-
  SchemaDrift/Join/Orientation.lean
  =================================
  **The canonical orientation of a join.**

  Of the two ways to write a relationship the canonical one has the lesser table
  name on the left, in the order of code points.  A join of a table with itself goes
  by the declared names of its sides, a missing name coming before every other; a
  made-up name counts as missing, so that naming the endpoints of a model never turns
  a join round.
-/
import SchemaDrift.Join.Basic

namespace SchemaDrift

namespace Join

/-- Whether a declared name comes strictly before another, a missing one being the least. -/
def nameBefore : Option String → Option String → Bool
  | none, some _ => true
  | some a, some b => decide (a < b)
  | _, none => false

/-- Whether the join is written the wrong way round. -/
def needsSwap (j : Join) : Bool :=
  if j.entities.left < j.entities.right then false
  else if j.entities.right < j.entities.left then true
  else nameBefore (j.declaredName? .right) (j.declaredName? .left)

def isNormalized (j : Join) : Bool := !j.needsSwap

/-- The join in canonical orientation. -/
def normalize (j : Join) : Join := if j.needsSwap then j.reversed else j

/-- The join in canonical orientation, with the news whether it had to be turned round. -/
def orient (j : Join) : Bool × Join :=
  if j.needsSwap then (true, j.reversed) else (false, j)

end Join

end SchemaDrift
