/-
  SchemaDrift/ForeignKey.lean
  ===========================
  **Foreign keys, and the side of a join that holds one.**

  A join does not say which of its tables refers to the other.  Where it declares a
  dependent key, the constraint sits opposite the side that declares it, unless the
  cardinality has a many side, which then holds it.  Otherwise the left table refers
  to the right one exactly when every right column of the join is a primary key
  column of its table.

  A constraint is named after its table and its columns.
-/
import SchemaDrift.Model.Basic

namespace SchemaDrift

/-- A foreign key: columns of a table that refer, position by position, to columns of another. -/
structure ForeignKey where
  table : String
  columns : List String
  referencedTable : String
  referencedColumns : List String
deriving Repr, DecidableEq

namespace ForeignKey

/-- The foreign key that a join stands for when one side refers to the other. -/
def ofJoin (j : Join) (referencing : Side) : ForeignKey :=
  { table := j.entity referencing
    columns := j.columns referencing
    referencedTable := j.entity referencing.opposite
    referencedColumns := j.columns referencing.opposite }

/-- The name of the constraint: `fk_`, the table and the columns, in lower case. -/
def constraintName (fk : ForeignKey) : String :=
  "fk_" ++ lowerName fk.table ++ "_" ++ lowerName (String.intercalate "_" fk.columns)

end ForeignKey

namespace Join

/-- Whether every column of a side is a primary key column of the table of this side. -/
def isFullyToKey (j : Join) (m : Model) (s : Side) : Except SchemaError Bool :=
  (m.tableOf j s).map fun t => (j.columns s).all t.isKeyColumn

/-- The side whose table refers to the other one. -/
def referencingSide (j : Join) (m : Model) : Except SchemaError Side :=
  match j.dependentKey.side? with
  | some declared => .ok (j.cardinality.manySide?.getD declared.opposite)
  | none => (j.isFullyToKey m .right).map fun full => if full then .left else .right

end Join

end SchemaDrift
