/-
  SchemaDrift/Database/Basic.lean
  ===============================
  **A database as a set of table definitions.**

  A database is known here by what its catalog says: for each table the columns with
  the types they were declared with, the primary key and the foreign keys.  Rows play
  no part in any decision of the library, so there are none.  A definition is accepted
  by `StoredTable.accepts` and by the names that are taken; a database that is built
  by `Database.create` alone therefore has no two tables of one name and no table with
  two columns of one name.
-/
import SchemaDrift.Dialect.Statement

namespace SchemaDrift

/-- A foreign key as it was declared.  Without referenced columns it means the primary key of the
    referenced table. -/
structure Reference where
  columns : List String
  table : String
  referencedColumns : List String := []
deriving Repr, DecidableEq

structure StoredTable where
  name : String
  columns : List ColumnDefinition
  /-- The names of the key columns, in key order and in any spelling. -/
  key : List String := []
  references : List Reference := []
deriving Repr, DecidableEq

/-- A database: its tables, in the order of their creation. -/
structure Database where
  tables : List StoredTable := []
deriving Repr, DecidableEq

namespace StoredTable

/-- The columns of a name; there is at most one in a table that was accepted. -/
def findColumn? (t : StoredTable) (name : String) : Option ColumnDefinition :=
  t.columns.find? fun c => sameName c.name name

def hasColumn (t : StoredTable) (name : String) : Bool := (t.findColumn? name).isSome

def distinctNames : List String → Bool
  | [] => true
  | name :: names => !namedIn names name && distinctNames names

/-- Whether the name is kept for tables of the database itself. -/
def isReservedName (name : String) : Bool :=
  (name.toList.take 7).map Char.toUpper == "SQLITE_".toList

/-- Whether a foreign key fits its table: it has columns, they exist, and it names as many
    referenced columns or none. -/
def acceptsReference (t : StoredTable) (r : Reference) : Bool :=
  !r.columns.isEmpty && r.columns.all t.hasColumn &&
    (r.referencedColumns.isEmpty || r.referencedColumns.length == r.columns.length)

/-- Whether the definition is complete in itself: its name is free to use, it has columns with
    names of their own, and its keys name columns that exist. -/
def accepts (t : StoredTable) : Bool :=
  !isReservedName t.name && !t.columns.isEmpty && distinctNames (t.columns.map (·.name)) &&
    t.key.all t.hasColumn && t.references.all t.acceptsReference

end StoredTable

namespace Database

def empty : Database := {}

def findTable? (db : Database) (name : String) : Option StoredTable :=
  db.tables.find? fun t => sameName t.name name

/-- Creates a table, unless its definition is refused or its name is taken. -/
def create (db : Database) (t : StoredTable) : Option Database :=
  if t.accepts && (db.findTable? t.name).isNone then some ⟨db.tables ++ [t]⟩ else none

/-- The database with these tables, created in order. -/
def ofTables? (tables : List StoredTable) : Option Database := tables.foldlM create empty

end Database

end SchemaDrift
