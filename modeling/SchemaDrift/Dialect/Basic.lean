/-
  SchemaDrift/Dialect/Basic.lean
  ==============================
  **Dialects: how a database is told to change.**

  A dialect has a name for every column type and statements for the changes that it
  can express; what it cannot express is an error, never passed over.  SQLite can
  create and drop tables and columns and nothing else.  PostgreSQL has statements for
  every change: a join becomes a foreign key constraint, and a new primary key takes
  the place of the constraint that PostgreSQL names after the table.
-/
import SchemaDrift.Change.Basic
import SchemaDrift.Dialect.Statement

namespace SchemaDrift

/-- A language of statements. -/
structure Dialect where
  name : String
  typeName : SqlType → String
  statements : Change → Except SchemaError (List Statement)

namespace Dialect

/-- A column in a statement; that it is a key column is said for the whole table. -/
def defineColumn (typeName : SqlType → String) (c : Column) : ColumnDefinition :=
  ⟨c.name, typeName c.type, !c.nullable⟩

def defineTable (typeName : SqlType → String) (t : Table) : Statement :=
  .createTable t.name (t.columns.map (defineColumn typeName)) t.primaryKey

/-! ### SQLite -/

/-- The storage classes of SQLite; a type without a mapping keeps its declaration. -/
def sqliteType : SqlType → String
  | .integer | .smallInt | .bigInt | .boolean => "INTEGER"
  | .text | .varchar _ | .char _ | .date | .time | .timestamp => "TEXT"
  | .real | .double => "REAL"
  | .decimal _ _ => "NUMERIC"
  | .blob => "BLOB"
  | .other declared => declared

/-- The statements of SQLite. -/
def sqliteStatements (c : Change) : Except SchemaError (List Statement) :=
  match c with
  | .addTable table => .ok [defineTable sqliteType table]
  | .dropTable table => .ok [.dropTable table.name false]
  | .addColumn table column => .ok [.addColumn table (defineColumn sqliteType column)]
  | .dropColumn table column => .ok [.dropColumn table column.name]
  | .addJoin _ _ | .dropJoin _ _ | .setPrimaryKey _ _ _ | .setColumnType _ _ _ _
  | .setNotNull _ _ | .setAllowNull _ _ => .error (.unsupportedOperation "sqlite" c.description)

def sqlite : Dialect := ⟨"sqlite", sqliteType, sqliteStatements⟩

/-! ### PostgreSQL -/

/-- The type names of PostgreSQL; a type without a mapping keeps its declaration. -/
def postgresType : SqlType → String
  | .integer => "INTEGER"
  | .bigInt => "BIGINT"
  | .smallInt => "SMALLINT"
  | .boolean => "BOOLEAN"
  | .text => "TEXT"
  | .varchar length => "VARCHAR(" ++ decimal length.toNat ++ ")"
  | .char length => "CHAR(" ++ decimal length.toNat ++ ")"
  | .decimal precision scale =>
    "NUMERIC(" ++ decimal precision.toNat ++ ", " ++ decimal scale.toNat ++ ")"
  | .real => "REAL"
  | .double => "DOUBLE PRECISION"
  | .date => "DATE"
  | .time => "TIME"
  | .timestamp => "TIMESTAMP"
  | .blob => "BYTEA"
  | .other declared => declared

/-- The name that PostgreSQL gives the primary key constraint of a table. -/
def keyConstraintName (table : String) : String := table ++ "_pkey"

/-- The statements of PostgreSQL for a change. -/
def postgresChange : Change → List Statement
  | .addTable table => [defineTable postgresType table]
  | .dropTable table => [.dropTable table.name true]
  | .addColumn table column => [.addColumn table (defineColumn postgresType column)]
  | .dropColumn table column => [.dropColumn table column.name]
  | .addJoin join referencing => [.addForeignKey (.ofJoin join referencing)]
  | .dropJoin join referencing =>
    let fk := ForeignKey.ofJoin join referencing
    [.dropConstraint fk.table fk.constraintName]
  | .setPrimaryKey table old new =>
    (if old.isEmpty then [] else [.dropConstraint table (keyConstraintName table)]) ++
      if new.isEmpty then [] else [.addPrimaryKey table new]
  | .setColumnType table column _ new => [.setType table column (postgresType new)]
  | .setNotNull table column => [.setNotNull table column]
  | .setAllowNull table column => [.dropNotNull table column]

def postgres : Dialect := ⟨"postgresql", postgresType, fun c => .ok (postgresChange c)⟩

def render (d : Dialect) (c : Change) : Except SchemaError (List String) :=
  (d.statements c).map (·.map Statement.sql)

end Dialect

end SchemaDrift
