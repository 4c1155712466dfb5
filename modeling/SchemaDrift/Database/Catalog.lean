/-
  SchemaDrift/Database/Catalog.lean
  =================================
  **What a catalog says of the tables it lists.**

  The answers to the queries of the catalog, row by row: the names of the tables in
  order, without those that belong to the database itself; for a table its columns, in
  the order of their declaration, each with its position in the primary key, counted
  from one; and the pairs of columns of its foreign keys, which are numbered from the
  last declared one.  A table that is not there has no rows.
-/
import SchemaDrift.Database.Basic
import SchemaDrift.Database.Engine
import SchemaDrift.Text.Sorted

namespace SchemaDrift

namespace StoredTable

/-- Whether a name begins with `sqlite`, in any case. -/
def hasSystemPrefix (name : String) : Bool :=
  (name.toList.take 6).map Char.toUpper == "SQLITE".toList

/-- Whether a name belongs to the database itself: the prefix with at least one more character. -/
def isInternalName (name : String) : Bool :=
  hasSystemPrefix name && !(name.toList.drop 6).isEmpty

/-- A name in the spelling of the table's columns. -/
def spelling (t : StoredTable) (name : String) : String :=
  ((t.findColumn? name).map (·.name)).getD name

/-- The position of a column in the key, counted from one; zero for any other column.  A column
    that the key lists twice counts at its first place. -/
def keyPosition (t : StoredTable) (column : String) : Nat :=
  match t.key.findIdx? (sameName · column) with
  | some place => place + 1
  | none => 0

def columnRow (t : StoredTable) (place : Nat) (c : ColumnDefinition) : Row where
  cells :=
    [("cid", .integer place), ("name", .text c.name), ("type", .text c.type),
      ("notnull", .integer (if c.notNull then 1 else 0)), ("dflt_value", .null),
      ("pk", .integer (t.keyPosition c.name))]

def columnRows (t : StoredTable) : List Row :=
  t.columns.zipIdx.map fun (c, place) => t.columnRow place c

def referenceRow (t : StoredTable) (number place : Nat) (r : Reference) (column : String) :
    Row where
  cells :=
    [("id", .integer number), ("seq", .integer place), ("table", .text r.table),
      ("from", .text (t.spelling column)),
      ("to", (r.referencedColumns[place]?.map Cell.text).getD .null),
      ("on_update", .text "NO ACTION"), ("on_delete", .text "NO ACTION"), ("match", .text "NONE")]

def foreignKeyRows (t : StoredTable) : List Row :=
  t.references.reverse.zipIdx.flatMap fun (r, number) =>
    r.columns.zipIdx.map fun (column, place) => t.referenceRow number place r column

end StoredTable

namespace Database

/-- The names of the tables of the user, in order. -/
def userNames (db : Database) : List String :=
  sortDistinct ((db.tables.map (·.name)).filter fun name => !StoredTable.isInternalName name)

/-- What the catalog says. -/
def answer (db : Database) : CatalogQuery → List Row
  | .tables => db.userNames.map fun name => ⟨[("name", .text name)]⟩
  | .columns table => ((db.findTable? table).map StoredTable.columnRows).getD []
  | .foreignKeys table => ((db.findTable? table).map StoredTable.foreignKeyRows).getD []

end Database

end SchemaDrift
