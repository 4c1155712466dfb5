/-
  SchemaDrift/Change/Apply.lean
  =============================
  **Applying a change to a model.**

  `Change.apply` carries a change out in memory.  It refuses a change that does not
  fit: a table, a column or a join that is there already or is missing, and NULL for a
  column of the primary key.  Tables and columns are found by name without regard to
  case, and an error spells the names as the change does.  Only the changes that touch
  joins compile the model again.
-/
import SchemaDrift.Change.Basic
import SchemaDrift.Model.Edit

namespace SchemaDrift

namespace Model

def requireTable (m : Model) (name : String) : Except SchemaError Table :=
  match m.findTable? name with
  | some t => .ok t
  | none => .error (.invalidState (.tableMissing name))

/-- The column of a table that a change names; the table is spelled as in the change. -/
def requireColumn (t : Table) (table name : String) : Except SchemaError Column :=
  match t.findColumn? name with
  | some c => .ok c
  | none => .error (.invalidState (.columnMissing table name))

/-- Adds a column behind the others; one that is marked as a key column is entered into the
    key. -/
def addColumn (m : Model) (table : String) (c : Column) : Except SchemaError Model := do
  let t ← m.requireTable table
  if (t.findColumn? c.name).isSome then
    throw (.invalidState (.columnExists table c.name))
  return m.modifyTable table fun t =>
    { t with
      columns := t.columns ++ [c]
      primaryKey := if c.key then t.primaryKey ++ [c.name] else t.primaryKey }

/-- Removes a column, and its entries in the primary key. -/
def dropColumn (m : Model) (table name : String) : Except SchemaError Model := do
  let t ← m.requireTable table
  let _ ← requireColumn t table name
  return m.modifyTable table (·.dropColumn name)

/-- Replaces the primary key of a table; every entry must be a column. -/
def setPrimaryKey (m : Model) (table : String) (key : List String) : Except SchemaError Model := do
  let t ← m.requireTable table
  key.forM fun name => (requireColumn t table name).map fun _ => ()
  return m.modifyTable table (·.setPrimaryKey key)

def setColumnType (m : Model) (table column : String) (type : SqlType) :
    Except SchemaError Model := do
  let t ← m.requireTable table
  let _ ← requireColumn t table column
  return m.modifyTable table (·.modifyColumn column fun c => { c with type })

/-- Allows or excludes NULL in a column; a key column cannot allow it. -/
def setNullable (m : Model) (table column : String) (nullable : Bool) :
    Except SchemaError Model := do
  let t ← m.requireTable table
  let c ← requireColumn t table column
  if nullable && c.key then
    throw (.invalidState (.keyColumnNull table column))
  return m.modifyTable table (·.modifyColumn column fun c => { c with nullable })

/-- Adds a join between two tables of the model, unless a join with its signature is there. -/
def addNewJoin (m : Model) (j : Join) : Except SchemaError (Edited Unit) := do
  j.entities.toList.forM fun entity => (m.requireTable entity).map fun _ => ()
  if m.joins.any fun k => k.signature == j.signature then
    throw (.invalidState (.joinExists j.display))
  return m.addJoin j

/-- Removes the join that matches `j`, which has to be there. -/
def dropExistingJoin (m : Model) (j : Join) : Except SchemaError (Edited Unit) :=
  let edited := m.removeJoin j
  match edited.result with
  | some _ => .ok { edited with result := () }
  | none => .error (.invalidState (.joinMissing j.display))

end Model

def Change.apply (c : Change) (m : Model) : Except SchemaError (Edited Unit) :=
  match c with
  | .addTable table => m.addTable table
  | .dropTable table => (m.removeTable table.name).map fun edited => { edited with result := () }
  | .addColumn table column => (m.addColumn table column).map (.done ·)
  | .dropColumn table column => (m.dropColumn table column.name).map (.done ·)
  | .addJoin join _ => m.addNewJoin join
  | .dropJoin join _ => m.dropExistingJoin join
  | .setPrimaryKey table _ new => (m.setPrimaryKey table new).map (.done ·)
  | .setColumnType table column _ new => (m.setColumnType table column new).map (.done ·)
  | .setNotNull table column => (m.setNullable table column false).map (.done ·)
  | .setAllowNull table column => (m.setNullable table column true).map (.done ·)

end SchemaDrift
