/-
  SchemaDrift/Model/Naming.lean
  =============================
  **Names for the endpoints that have none.**

  Every relationship of a compiled model has a name, and the relationships that start
  at one table are told apart by their names.  An endpoint without a declared name is
  called `to_` and its target table in lower case; if this name is taken at the source
  table, the numbers 1, 2, 3, … are tried at its end.  The joins are named in order,
  the left side of each before the right one, and a name given to one endpoint is
  taken for all that follow.

  The search goes through as many candidates as there are taken names and one more,
  and since the candidates differ from each other one of them is free.
-/
import SchemaDrift.Model.Basic
import SchemaDrift.Text.Decimal

namespace SchemaDrift

/-- The names in use, each with the folded name of the table at which it starts. -/
abbrev TakenNames := List (String × String)

def takenNames (joins : List Join) : TakenNames :=
  joins.flatMap fun j => Side.both.filterMap fun s =>
    (j.name? s).map fun name => (foldName (j.entity s), name)

/-- The candidates for a name: the base, and the base with a number. -/
def candidate (base : String) : Nat → String
  | 0 => base
  | n + 1 => base ++ decimal (n + 1)

/-- The first candidate that is not taken, from a position on. -/
def firstFree (taken : String → Bool) (base : String) : Nat → Nat → String
  | 0, n => candidate base n
  | fuel + 1, n =>
    if taken (candidate base n) then firstFree taken base fuel (n + 1) else candidate base n

def freshName (taken : TakenNames) (source base : String) : String :=
  firstFree (fun name => taken.contains (source, name)) base taken.length 0

/-- Gives one endpoint of a join a name if it has none, and records the name as taken. -/
def Join.nameEndpoint (taken : TakenNames) (j : Join) (s : Side) : TakenNames × Join :=
  match j.name? s with
  | some _ => (taken, j)
  | none =>
    let source := foldName (j.entity s)
    let name := freshName taken source ("to_" ++ lowerName (j.entity s.opposite))
    ((source, name) :: taken, j.synthesizeName s name)

def Join.nameEndpoints (taken : TakenNames) (j : Join) : TakenNames × Join :=
  let (taken, j) := j.nameEndpoint taken .left
  j.nameEndpoint taken .right

def nameJoins (taken : TakenNames) : List Join → List Join
  | [] => []
  | j :: joins =>
    let (taken, j) := j.nameEndpoints taken
    j :: nameJoins taken joins

/-- Names every endpoint of a model and brings its derived parts up to date. -/
def Model.compile (m : Model) : Model :=
  derive { m with joins := nameJoins (takenNames m.joins) m.joins }

def Model.ofParts (tables : List Table) (joins : List Join) : Model :=
  compile { tables, joins }

end SchemaDrift
