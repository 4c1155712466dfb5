/-
  SchemaDrift/Database/Introspection.lean
  =======================================
  **The model of a database.**

  Introspection turns the catalog of a database into a model: its tables in the order
  of their names, and its foreign keys as joins.  A catalog tells of a key column by
  column, each with its position in the key, so the key is put together by sorting the
  positions.  It tells of a foreign key pair by pair, each with the number of the
  foreign key.  A key column is never nullable, however it was declared.  Tables that a
  filter excludes are left out, with their foreign keys.
-/
import SchemaDrift.Database.Engine
import SchemaDrift.Inclusion
import SchemaDrift.Resolution

namespace SchemaDrift

/-! ### Tables -/

/-- What is known of a table after some of its rows. -/
structure TableReading where
  columns : List Column := []
  /-- The key columns, each with its position in the key. -/
  key : List (Int × String) := []

/-- Reads one more column. -/
def TableReading.step (r : TableReading) (row : Row) : Except SchemaError TableReading := do
  let name ← row.text "name"
  let declared ← row.text "type"
  let notNull ← row.integer "notnull"
  let position ← row.integer "pk"
  return {
    columns := r.columns ++
      [{ name
         type := .ofDeclared declared
         nullable := notNull == 0 && position == 0
         key := 0 < position }]
    key := if 0 < position then r.key ++ [(position, name)] else r.key }

/-- The order of the entries of a key: by position, then by name. -/
def comesBefore (a b : Int × String) : Bool := a.1 < b.1 || a.1 == b.1 && a.2 ≤ b.2

/-- The table that the rows of its columns tell of. -/
def readTable (name : String) (rows : List Row) : Except SchemaError Table := do
  let r ← rows.foldlM TableReading.step {}
  return {
    name
    columns := r.columns
    primaryKey := (r.key.mergeSort comesBefore).map (·.2) }

/-! ### Foreign keys -/

/-- The pair of columns that a row adds to the foreign key of a number; a referenced column that
    is left out is the empty name. -/
def Row.foreignKeyPart (table : String) (row : Row) : Except SchemaError (Int × ForeignKey) := do
  let number ← row.integer "id"
  let referencedTable ← row.text "table"
  let column ← row.text "from"
  let referenced ← row.text? "to"
  return (number,
    { table, columns := [column], referencedTable, referencedColumns := [referenced.getD ""] })

/-- Adds a part to the foreign key of its number, in a list in the order of the numbers. -/
def addPart (part : Int × ForeignKey) : List (Int × ForeignKey) → List (Int × ForeignKey)
  | [] => [part]
  | (number, fk) :: rest =>
    if part.1 < number then part :: (number, fk) :: rest
    else if part.1 = number then
      (number,
        { fk with
          columns := fk.columns ++ part.2.columns
          referencedColumns := fk.referencedColumns ++ part.2.referencedColumns }) :: rest
    else (number, fk) :: addPart part rest

/-- The foreign keys that the rows of a table tell of, in the order of their numbers. -/
def readForeignKeys (table : String) (rows : List Row) : Except SchemaError (List ForeignKey) := do
  let parts ← rows.mapM (Row.foreignKeyPart table)
  return (parts.foldl (fun read part => addPart part read) []).map (·.2)

/-- Puts the members of a key, by position, in the place of empty names.  Where the key has no
    such member the empty name stays. -/
def fillFromKey : List String → List String → List String
  | [], _ => []
  | names, [] => names
  | name :: names, k :: key => (if name.isEmpty then k else name) :: fillFromKey names key

/-- The foreign key with the columns that it leaves out: those of the primary key of the table
    that it refers to. -/
def ForeignKey.complete (fk : ForeignKey) (m : Model) : ForeignKey :=
  match m.findTable? fk.referencedTable with
  | some t => { fk with referencedColumns := fillFromKey fk.referencedColumns t.primaryKey }
  | none => fk

/-! ### Models -/

namespace Engine

variable {σ : Type}

/-- Reads one more table and its foreign keys. -/
def readInto (e : Engine σ) (db : σ) (read : Model × List ForeignKey) (name : String) :
    Except SchemaError (Model × List ForeignKey) := do
  let t ← readTable name (← e.ask db (.columns name))
  let edited ← read.1.addTable t
  let foreignKeys ← readForeignKeys name (← e.ask db (.foreignKeys name))
  return (edited.model, read.2 ++ foreignKeys)

/-- The model of the tables that take part. -/
def introspect (e : Engine σ) (db : σ) (f : Inclusion) : Except SchemaError Model := do
  let names ← (← e.ask db .tables).mapM (·.text "name")
  let (m, foreignKeys) ←
    (names.filter (f.table none none)).foldlM (e.readInto db) (Model.empty, [])
  return (m.loadForeignKeys (foreignKeys.map (·.complete m))).model

end Engine

end SchemaDrift
