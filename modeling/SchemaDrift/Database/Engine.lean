/-
  SchemaDrift/Database/Engine.lean
  ================================
  **A SQLite database, as far as it can be seen.**

  A database is somewhere else.  It gets texts, statements as well as queries, and what
  it does with them is its own affair: a statement leaves another state behind or is
  refused, a query is answered by rows.  The library asks three questions about the
  catalog: which tables there are, which columns a table has, and which foreign keys.
  The values of a row have names, and a value that is missing or of another kind than
  expected is an error of the database.
-/
import SchemaDrift.Dialect.Statement

namespace SchemaDrift

/-! ### Rows -/

/-- A value in a row. -/
inductive Cell where
  | null
  | integer (value : Int)
  | text (value : String)
deriving Repr, DecidableEq

/-- A row of an answer: values under the names of their columns. -/
structure Row where
  cells : List (String × Cell)
deriving Repr, DecidableEq

namespace Row

def text (row : Row) (column : String) : Except SchemaError String :=
  match row.cells.lookup column with
  | some (.text value) => .ok value
  | _ => .error .database

def text? (row : Row) (column : String) : Except SchemaError (Option String) :=
  match row.cells.lookup column with
  | some (.text value) => .ok (some value)
  | some .null => .ok none
  | _ => .error .database

def integer (row : Row) (column : String) : Except SchemaError Int :=
  match row.cells.lookup column with
  | some (.integer value) => .ok value
  | _ => .error .database

end Row

/-! ### Queries -/

/-- What is asked about the catalog. -/
inductive CatalogQuery where
  /-- The names of the tables of the user, in order. -/
  | tables
  | columns (table : String)
  | foreignKeys (table : String)
deriving Repr, DecidableEq

/-- The text of a query. -/
def CatalogQuery.sql : CatalogQuery → String
  | tables =>
    "SELECT name FROM sqlite_master WHERE type = 'table' AND name NOT LIKE 'sqlite_%' ORDER BY name"
  | columns table => "PRAGMA table_info(" ++ quoteName table ++ ")"
  | foreignKeys table => "PRAGMA foreign_key_list(" ++ quoteName table ++ ")"

/-! ### Engines -/

/-- What runs the statements and answers the queries of a database with states of type `σ`. -/
structure Engine (σ : Type) where
  /-- The state after a statement; none if the statement is refused, which changes nothing. -/
  execute : String → σ → Option σ
  /-- The rows that answer a query; none if the query is refused. -/
  query : String → σ → Option (List Row)

def Engine.ask {σ : Type} (e : Engine σ) (db : σ) (q : CatalogQuery) :
    Except SchemaError (List Row) :=
  match e.query q.sql db with
  | some rows => .ok rows
  | none => .error .database

end SchemaDrift
