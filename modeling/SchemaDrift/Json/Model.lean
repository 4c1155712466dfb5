/-
  SchemaDrift/Json/Model.lean
  ===========================
  **Models, tables and joins as JSON.**

  A model file holds the tables and the joins; names that were made up are in it, with
  their mark, and the parts that are derived from the joins are not.  Reading a file
  compiles the model, so that it is complete again.  Catalog, schema and primary key of
  a table, the marks of a join and the joins of a model may be missing in a file.
-/
import SchemaDrift.Json.Read
import SchemaDrift.Json.Shape
import SchemaDrift.Json.Write
import SchemaDrift.Model.Naming

namespace SchemaDrift

/-! ### Types, columns and tables -/

/-- The number of different bytes. -/
def byteBound : Nat := 256

namespace SqlType

def toJson : SqlType → Json
  | integer => .string "Integer"
  | bigInt => .string "BigInt"
  | smallInt => .string "SmallInt"
  | boolean => .string "Boolean"
  | text => .string "Text"
  | varchar length => .tagged "Varchar" (.nat length.toNat)
  | char length => .tagged "Char" (.nat length.toNat)
  | decimal precision scale =>
    .tagged "Decimal" (.list [.nat precision.toNat, .nat scale.toNat])
  | real => .string "Real"
  | double => .string "Double"
  | date => .string "Date"
  | time => .string "Time"
  | timestamp => .string "Timestamp"
  | blob => .string "Blob"
  | other declared => .tagged "Other" (.string declared)

def ofWord? : String → Option SqlType
  | "Integer" => some integer
  | "BigInt" => some bigInt
  | "SmallInt" => some smallInt
  | "Boolean" => some boolean
  | "Text" => some text
  | "Real" => some real
  | "Double" => some double
  | "Date" => some date
  | "Time" => some time
  | "Timestamp" => some timestamp
  | "Blob" => some blob
  | _ => none

/-- The length of a character type. -/
def lengthOfJson? (payload : Json) : Option UInt64 :=
  (payload.asNat? wordBound).map UInt64.ofNat

def byteOfJson? (payload : Json) : Option UInt8 := (payload.asNat? byteBound).map UInt8.ofNat

/-- The type of a tag and what it carries. -/
def ofTagged? (tag : String) (payload : Json) : Option SqlType :=
  match tag with
  | "Varchar" => (lengthOfJson? payload).map varchar
  | "Char" => (lengthOfJson? payload).map char
  | "Decimal" =>
    (payload.asPair? byteOfJson? byteOfJson?).map fun (precision, scale) => decimal precision scale
  | "Other" => payload.asString?.map other
  | _ => none

def ofJson? (value : Json) : Option SqlType :=
  match value.asWord?.bind ofWord? with
  | some type => some type
  | none =>
    match value.asTagged? with
    | some (.carrying tag payload) => ofTagged? tag payload
    | _ => none

end SqlType

namespace Column

def toJson (c : Column) : Json :=
  .object [("name", .string c.name), ("sql_type", c.type.toJson), ("nullable", .bool c.nullable),
    ("primary_key", .bool c.key)]

def ofJson? (value : Json) : Option Column := do
  let [name, type, nullable, key] ← value.record ["name", "sql_type", "nullable", "primary_key"]
    | none
  return {
    name := ← Json.required Json.asString? name
    type := ← Json.required SqlType.ofJson? type
    nullable := ← Json.required Json.asBool? nullable
    key := ← Json.required Json.asBool? key }

end Column

namespace Table

def toJson (t : Table) : Json :=
  .object [("catalog", .optionalString t.catalog), ("schema", .optionalString t.schema),
    ("name", .string t.name), ("columns", .array Column.toJson t.columns),
    ("primary_key", .strings t.primaryKey)]

def ofJson? (value : Json) : Option Table := do
  let [catalog, schema, name, columns, key] ←
      value.record ["catalog", "schema", "name", "columns", "primary_key"]
    | none
  return {
    catalog := ← Json.withDefault none (Json.nullable Json.asString?) catalog
    schema := ← Json.withDefault none (Json.nullable Json.asString?) schema
    name := ← Json.required Json.asString? name
    columns := ← Json.required (Json.asList? Column.ofJson?) columns
    primaryKey := ← Json.withDefault [] (Json.asList? Json.asString?) key }

end Table

/-! ### Joins -/

namespace Side

def name : Side → String
  | left => "Left"
  | right => "Right"

def toJson (s : Side) : Json := .string s.name

def ofJson? (value : Json) : Option Side :=
  match value.asWord? with
  | some "Left" => some left
  | some "Right" => some right
  | _ => none

end Side

namespace Sides

variable {α : Type}

def toJson (encode : α → Json) (p : Sides α) : Json := .list [encode p.left, encode p.right]

def ofJson? (decode : Json → Option α) (value : Json) : Option (Sides α) :=
  (value.asPair? decode decode).map fun (left, right) => ⟨left, right⟩

end Sides

namespace Condition

def pairToJson (pair : ColumnPair) : Json :=
  .object [("left", .string pair.left), ("right", .string pair.right)]

def pairOfJson? (value : Json) : Option ColumnPair := do
  let [left, right] ← value.record ["left", "right"] | none
  return ⟨← Json.required Json.asString? left, ← Json.required Json.asString? right⟩

def toJson : Condition → Json
  | single pair => .tagged "Single" (pairToJson pair)
  | composite pairs => .tagged "Composite" (.array pairToJson pairs)

/-- Decodes a condition; the number of pairs of a composite one is not checked. -/
def ofJson? (value : Json) : Option Condition :=
  match value.asTagged? with
  | some (.carrying "Single" payload) => (pairOfJson? payload).map single
  | some (.carrying "Composite" payload) => (payload.asList? pairOfJson?).map composite
  | _ => none

end Condition

def Cardinality.ofJson? (value : Json) : Option Cardinality := value.asWord?.bind ofWord?

def DependentKey.ofJson? (value : Json) : Option DependentKey := value.asWord?.bind ofWord?

namespace Join

def toJson (j : Join) : Json :=
  .object [("entities", j.entities.toJson .string), ("names", j.names.toJson .optionalString),
    ("synthesized", j.synthesized.toJson .bool), ("to_many", .string j.cardinality.word),
    ("to_dependent_pk", .string j.dependentKey.word), ("condition", j.condition.toJson)]

/-- Decodes a join; blank table names are not refused here. -/
def ofJson? (value : Json) : Option Join := do
  let [entities, names, synthesized, cardinality, dependentKey, condition] ←
      value.record ["entities", "names", "synthesized", "to_many", "to_dependent_pk", "condition"]
    | none
  return {
    entities := ← Json.required (Sides.ofJson? Json.asString?) entities
    names := ← Json.required (Sides.ofJson? (Json.nullable Json.asString?)) names
    synthesized := ← Json.withDefault ⟨false, false⟩ (Sides.ofJson? Json.asBool?) synthesized
    cardinality := ← Json.required Cardinality.ofJson? cardinality
    dependentKey := ← Json.required DependentKey.ofJson? dependentKey
    condition := ← Json.required Condition.ofJson? condition }

end Join

/-! ### Models -/

namespace Model

def toJson (m : Model) : Json :=
  .object [("tables", .array Table.toJson m.tables), ("joins", .array Join.toJson m.joins)]

/-- Decodes a model and compiles it. -/
def ofJson? (value : Json) : Option Model := do
  let [tables, joins] ← value.record ["tables", "joins"] | none
  return ofParts
    (← Json.required (Json.asList? Table.ofJson?) tables)
    (← Json.withDefault [] (Json.asList? Join.ofJson?) joins)

/-- Reads the text of a model file. -/
def ofText (text : String) : Except SchemaError Model :=
  match (Json.read text).bind ofJson? with
  | some m => .ok m
  | none => .error .serialization

def toText (m : Model) : String := m.toJson.pretty

end Model

end SchemaDrift
