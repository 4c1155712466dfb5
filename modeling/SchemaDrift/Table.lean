/-
  SchemaDrift/Table.lean
  ======================
  **Tables: columns and an ordered primary key.**

  A table keeps its key twice: as the list `primaryKey`, in key order, and as a flag
  of each column.  `Table.withColumn` and `Table.setPrimaryKey` write both; a table
  that was decoded from a file may hold the two in disagreement, and nothing here
  assumes that they agree.  Columns are found by name without regard to ASCII case,
  the first one winning.
-/
import SchemaDrift.SqlType
import SchemaDrift.Text.Name

namespace SchemaDrift

/-- Changes the first item that passes a test. -/
def modifyFirst {α : Type} (test : α → Bool) (change : α → α) : List α → List α
  | [] => []
  | x :: xs => if test x then change x :: xs else x :: modifyFirst test change xs

structure Column where
  name : String
  type : SqlType
  nullable : Bool
  /-- Whether the column is marked as part of the primary key. -/
  key : Bool
deriving Repr, DecidableEq, Inhabited

namespace Column

/-- A column that allows NULL and is not part of the key. -/
def ofType (name : String) (type : SqlType) : Column := ⟨name, type, true, false⟩

def notNull (c : Column) : Column := { c with nullable := false }

/-- The column as part of the primary key, which excludes NULL. -/
def asKey (c : Column) : Column := { c with key := true, nullable := false }

end Column

/-- A table, with the catalog and the schema it lives in where the database has them. -/
structure Table where
  catalog : Option String := none
  schema : Option String := none
  name : String
  columns : List Column := []
  /-- The names of the key columns, in key order. -/
  primaryKey : List String := []
deriving Repr, DecidableEq, Inhabited

namespace Table

def named (name : String) : Table := { name }

def inSchema (t : Table) (catalog schema : Option String) : Table := { t with catalog, schema }

/-- The table with one more column; a key column is entered into the key unless its exact name
    is listed there. -/
def withColumn (t : Table) (c : Column) : Table :=
  { t with
    columns := t.columns ++ [c]
    primaryKey :=
      if c.key && !t.primaryKey.contains c.name then t.primaryKey ++ [c.name] else t.primaryKey }

/-- The first column of a name. -/
def findColumn? (t : Table) (name : String) : Option Column :=
  t.columns.find? fun c => sameName c.name name

def modifyColumn (t : Table) (name : String) (change : Column → Column) : Table :=
  { t with columns := modifyFirst (fun c => sameName c.name name) change t.columns }

def isKeyColumn (t : Table) (name : String) : Bool := namedIn t.primaryKey name

/-- The flag that a column carries when `key` is the primary key; a key column excludes NULL. -/
def markKey (key : List String) (c : Column) : Column :=
  if namedIn key c.name then c.asKey else { c with key := false }

/-- The table with another primary key: the list is replaced and every flag follows it. -/
def setPrimaryKey (t : Table) (key : List String) : Table :=
  { t with columns := t.columns.map (markKey key), primaryKey := key }

/-- The table with one column less: its first column of the name, and every entry of the key that
    has this name. -/
def dropColumn (t : Table) (name : String) : Table :=
  { t with
    columns := t.columns.eraseP fun c => sameName c.name name
    primaryKey := t.primaryKey.filter fun entry => !sameName entry name }

end Table

end SchemaDrift
