/-
  SchemaDrift/Json/Database.lean
  ==============================
  **Descriptions of databases as JSON.**

  A database is described by the list of its tables in the order of their creation.
  A description is only accepted if the database accepts every table of it.
-/
import SchemaDrift.Database.Basic
import SchemaDrift.Json.Read
import SchemaDrift.Json.Shape
import SchemaDrift.Json.Write

namespace SchemaDrift

namespace ColumnDefinition

def toJson (c : ColumnDefinition) : Json :=
  .object [("name", .string c.name), ("type", .string c.type), ("not_null", .bool c.notNull)]

/-- Decodes a declared column, which may have NULL unless it says otherwise. -/
def ofJson? (value : Json) : Option ColumnDefinition := do
  let [name, type, notNull] ← value.record ["name", "type", "not_null"] | none
  return {
    name := ← Json.required Json.asString? name
    type := ← Json.withDefault "" Json.asString? type
    notNull := ← Json.withDefault false Json.asBool? notNull }

end ColumnDefinition

/-- Decodes a list of names, which may be left out. -/
def Json.names? (field : Option Json) : Option (List String) :=
  Json.withDefault [] (Json.asList? Json.asString?) field

namespace Reference

def toJson (r : Reference) : Json :=
  .object [("columns", .strings r.columns), ("table", .string r.table),
    ("references", .strings r.referencedColumns)]

def ofJson? (value : Json) : Option Reference := do
  let [columns, table, references] ← value.record ["columns", "table", "references"] | none
  return {
    columns := ← Json.required (Json.asList? Json.asString?) columns
    table := ← Json.required Json.asString? table
    referencedColumns := ← Json.names? references }

end Reference

namespace StoredTable

def toJson (t : StoredTable) : Json :=
  .object [("name", .string t.name), ("columns", .array ColumnDefinition.toJson t.columns),
    ("primary_key", .strings t.key), ("foreign_keys", .array Reference.toJson t.references)]

def ofJson? (value : Json) : Option StoredTable := do
  let [name, columns, key, references] ←
      value.record ["name", "columns", "primary_key", "foreign_keys"]
    | none
  return {
    name := ← Json.required Json.asString? name
    columns := ← Json.required (Json.asList? ColumnDefinition.ofJson?) columns
    key := ← Json.names? key
    references := ← Json.withDefault [] (Json.asList? Reference.ofJson?) references }

end StoredTable

namespace Database

/-- A description of the database. -/
def toText (db : Database) : String := (Json.array StoredTable.toJson db.tables).pretty

/-- The database of a description. -/
def ofText (text : String) : Except SchemaError Database :=
  match (Json.read text).bind (Json.asList? StoredTable.ofJson?) with
  | none => .error .parse
  | some tables =>
    match ofTables? tables with
    | some db => .ok db
    | none => .error .database

end Database

end SchemaDrift
