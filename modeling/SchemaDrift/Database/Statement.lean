/-
  SchemaDrift/Database/Statement.lean
  ===================================
  **A database in memory.**

  Where there is no SQLite, this engine stands in for it.  It reads the texts it is
  given, creates and drops tables and columns, and answers questions about its catalog.
  A statement that it refuses changes nothing, and every statement outside its language
  is refused: constraints, types and nullability of existing columns cannot be altered,
  and a drop does not cascade.
-/
import SchemaDrift.Database.Catalog
import SchemaDrift.Database.Language
import SchemaDrift.Table

namespace SchemaDrift

namespace StoredTable

/-- The table with a column behind the others, unless it has one of the name. -/
def addColumn (t : StoredTable) (c : ColumnDefinition) : Option StoredTable :=
  if t.hasColumn c.name then none else some { t with columns := t.columns ++ [c] }

/-- Whether a column can be dropped: it exists, it is not the only one, and neither the primary
    key nor a foreign key of the table is made of it. -/
def canDrop (t : StoredTable) (column : String) : Bool :=
  t.hasColumn column && 1 < t.columns.length && !namedIn t.key column &&
    t.references.all fun r => !namedIn r.columns column

/-- The table without a column, unless the column is needed. -/
def dropColumn (t : StoredTable) (column : String) : Option StoredTable :=
  if t.canDrop column then
    some { t with columns := t.columns.eraseP fun c => sameName c.name column }
  else none

end StoredTable

namespace Database

/-- Changes the table of a name, unless there is none or the change is refused. -/
def alter (db : Database) (table : String) (change : StoredTable → Option StoredTable) :
    Option Database := do
  let changed ← (← db.findTable? table) |> change
  return ⟨modifyFirst (fun t => sameName t.name table) (fun _ => changed) db.tables⟩

/-- Drops the table of a name.  Foreign keys of other tables that refer to it stay. -/
def drop (db : Database) (table : String) : Option Database :=
  (db.findTable? table).map fun _ => ⟨db.tables.eraseP fun t => sameName t.name table⟩

/-- Carries out a statement. -/
def perform (db : Database) : Statement → Option Database
  | .createTable name columns key => db.create { name, columns, key }
  | .dropTable table false => db.drop table
  | .addColumn table column => db.alter table (·.addColumn column)
  | .dropColumn table column => db.alter table (·.dropColumn column)
  | .dropTable _ true | .addForeignKey _ | .dropConstraint _ _ | .addPrimaryKey _ _
  | .setType _ _ _ | .setNotNull _ _ | .dropNotNull _ _ => none

/-- The database in memory as an engine: it does what it reads. -/
def engine : Engine Database where
  execute text db := (Language.readStatement text).bind db.perform
  query text db := (Language.readQuery text).map db.answer

end Database

end SchemaDrift
