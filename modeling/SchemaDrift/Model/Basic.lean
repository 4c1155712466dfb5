/-
  SchemaDrift/Model/Basic.lean
  ============================
  **Models: tables, joins, and what is derived from the joins.**

  A model owns its tables and joins.  Two further parts are derived from the joins
  and never edited: the directional relationships (two for each join, the one from
  the left side first) and the index that leads from a folded table name to the
  positions of the joins that touch the table.  They are kept in the model, as they
  are read far more often than the joins change, and `Model.derive` brings them up to
  date.
-/
import SchemaDrift.Join.Signature
import SchemaDrift.Table

namespace SchemaDrift

/-- A join seen from one of its sides. -/
structure Relationship where
  /-- The position of the join in the model. -/
  join : Nat
  side : Side
  name : String
  source : String
  target : String
  toMany : Bool
  toDependentKey : Bool
  /-- Each pair of columns, the one of the source first. -/
  pairs : List (String × String)
deriving Repr, DecidableEq

/-- The relationship that starts at a side of the join at a position. -/
def Join.relationship (position : Nat) (j : Join) (s : Side) : Relationship :=
  { join := position
    side := s
    name := (j.name? s).getD ""
    source := j.entity s
    target := j.entity s.opposite
    toMany := j.isToMany s
    toDependentKey := j.isToDependentKey s
    pairs := j.condition.pairs.map fun pair => (pair.get s, pair.get s.opposite) }

/-- The relationships of joins at consecutive positions. -/
def relationshipsFrom (position : Nat) : List Join → List Relationship
  | [] => []
  | j :: joins => Side.both.map (j.relationship position) ++ relationshipsFrom (position + 1) joins

/-- The positions, counted from a first one, of the joins that have an endpoint with a folded
    name. -/
def positionsTouching (key : String) (position : Nat) : List Join → List Nat
  | [] => []
  | j :: joins =>
    if j.entities.toList.any (foldName · == key) then
      position :: positionsTouching key (position + 1) joins
    else positionsTouching key (position + 1) joins

/-- For each folded table name that a join mentions, the positions of the joins that mention it. -/
def joinIndex (joins : List Join) : List (String × List Nat) :=
  (sortDistinct (joins.flatMap fun j => j.entities.toList.map foldName)).map fun key =>
    (key, positionsTouching key 0 joins)

/-- A complete schema: tables and joins, with the views derived from the joins. -/
structure Model where
  tables : List Table := []
  joins : List Join := []
  relationships : List Relationship := []
  index : List (String × List Nat) := []
deriving Repr, DecidableEq, Inhabited

namespace Model

def empty : Model := {}

/-- The model with its derived parts brought up to date. -/
def derive (m : Model) : Model :=
  { m with relationships := relationshipsFrom 0 m.joins, index := joinIndex m.joins }

def findTable? (m : Model) (name : String) : Option Table :=
  m.tables.find? fun t => sameName t.name name

def modifyTable (m : Model) (name : String) (change : Table → Table) : Model :=
  { m with tables := modifyFirst (fun t => sameName t.name name) change m.tables }

def relationshipsOf (m : Model) (table : String) : List Relationship :=
  m.relationships.filter fun r => sameName r.source table

def joinsOf (m : Model) (table : String) : List Join :=
  ((m.index.lookup (foldName table)).getD []).filterMap fun position => m.joins[position]?

/-- The table of one side of a join, which must be in the model. -/
def tableOf (m : Model) (j : Join) (s : Side) : Except SchemaError Table :=
  match m.findTable? (j.entity s) with
  | some t => .ok t
  | none => .error (.danglingJoin j.display (j.entity s))

/-- Checks that every endpoint of every join is a table of the model; the first one that is not
    is reported. -/
def validateJoins (m : Model) : Except SchemaError Unit :=
  m.joins.forM fun j => Side.both.forM fun s => (m.tableOf j s).map fun _ => ()

end Model

end SchemaDrift
