/-
  SchemaDrift/Filter.lean
  =======================
  **Filters made of patterns.**

  A filter file lists patterns for the names of tables and of columns, those to include
  and those to exclude, and may name a catalog and a schema.  A pattern has to match a
  whole name, in any case.  No included pattern means that every name is included, and
  an excluded one always wins.  A catalog or a schema restricts only the tables that
  have one.

  A pattern is put between fixed parts before it is read, as a text.  So one that closes
  a parenthesis which it did not open changes the meaning of the whole.
-/
import SchemaDrift.Inclusion
import SchemaDrift.Json.Read
import SchemaDrift.Json.Shape
import SchemaDrift.Pattern.Parse

namespace SchemaDrift

/-! ### Lists of patterns -/

/-- Patterns to include and to exclude. -/
structure NameFilter where
  includes : List Pattern := []
  excludes : List Pattern := []
deriving Repr, DecidableEq

namespace NameFilter

/-- The pattern of a line of a filter: it has to match a whole name, in any case. -/
def compile (line : String) : Except SchemaError Pattern :=
  match Pattern.parse ("(?i)^(?:" ++ line ++ ")$") with
  | some p => .ok p
  | none => .error .pattern

/-- The filter of two lists of lines. -/
def ofLines (includes excludes : List String) : Except SchemaError NameFilter := do
  let includes ← includes.mapM compile
  let excludes ← excludes.mapM compile
  return { includes, excludes }

def includesName (f : NameFilter) (name : String) : Bool :=
  (f.includes.isEmpty || f.includes.any (·.occursIn name)) && !f.excludes.any (·.occursIn name)

end NameFilter

/-! ### Filter files -/

/-- What a filter file says. -/
structure FilterSpec where
  catalog : Option String := none
  schema : Option String := none
  includeTables : List String := []
  excludeTables : List String := []
  /-- The column patterns apply to every table. -/
  includeColumns : List String := []
  excludeColumns : List String := []
deriving Repr, DecidableEq

namespace FilterSpec

/-- Whether a table is in a catalog or a schema, as far as both are known. -/
def scopeMatches (wanted actual : Option String) : Bool :=
  match wanted, actual with
  | some wanted, some actual => sameName wanted actual
  | _, _ => true

/-- The filter of a specification.  The table patterns are read before the column patterns. -/
def build (spec : FilterSpec) : Except SchemaError Inclusion := do
  let tables ← NameFilter.ofLines spec.includeTables spec.excludeTables
  let columns ← NameFilter.ofLines spec.includeColumns spec.excludeColumns
  return {
    table := fun catalog schema name =>
      scopeMatches spec.catalog catalog && scopeMatches spec.schema schema &&
        tables.includesName name
    column := fun _ name => columns.includesName name }

def toJson (spec : FilterSpec) : Json :=
  .object [("catalog", .optionalString spec.catalog), ("schema", .optionalString spec.schema),
    ("include_tables", .strings spec.includeTables),
    ("exclude_tables", .strings spec.excludeTables),
    ("include_columns", .strings spec.includeColumns),
    ("exclude_columns", .strings spec.excludeColumns)]

/-- Decodes a specification, of which every part may be missing. -/
def ofJson? (value : Json) : Option FilterSpec := do
  let [catalog, schema, includeTables, excludeTables, includeColumns, excludeColumns] ←
      value.record ["catalog", "schema", "include_tables", "exclude_tables", "include_columns",
        "exclude_columns"]
    | none
  let text := Json.withDefault none (Json.nullable Json.asString?)
  let lines := Json.withDefault [] (Json.asList? Json.asString?)
  return {
    catalog := ← text catalog
    schema := ← text schema
    includeTables := ← lines includeTables
    excludeTables := ← lines excludeTables
    includeColumns := ← lines includeColumns
    excludeColumns := ← lines excludeColumns }

/-- Reads the text of a filter file. -/
def ofText (text : String) : Except SchemaError FilterSpec :=
  match (Json.read text).bind ofJson? with
  | some spec => .ok spec
  | none => .error .parse

end FilterSpec

end SchemaDrift
