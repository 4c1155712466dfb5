/-
  SchemaDrift/Json/Plan.lean
  ==========================
  **Changes, tokens, plans and reports as JSON.**

  A change is tagged with its kind and carries the fields of this kind.  A report gives
  the statements of a token as texts.
-/
import SchemaDrift.Execution
import SchemaDrift.Json.Model
import SchemaDrift.Plan

namespace SchemaDrift

namespace Direction

def word : Direction → String
  | toModel => "to_model"
  | toDatabase => "to_db"

def ofWord? : String → Option Direction
  | "to_model" => some toModel
  | "to_db" => some toDatabase
  | _ => none

def ofJson? (value : Json) : Option Direction := value.asWord?.bind ofWord?

end Direction

namespace Change

/-- What a change carries, as JSON. -/
def payload : Change → List (String × Json)
  | addTable table | dropTable table => [("table", table.toJson)]
  | addColumn table column | dropColumn table column =>
    [("table", .string table), ("column", column.toJson)]
  | addJoin join referencing | dropJoin join referencing =>
    [("join", join.toJson), ("referencing", referencing.toJson)]
  | setPrimaryKey table old new =>
    [("table", .string table), ("from", .strings old), ("to", .strings new)]
  | setColumnType table column old new =>
    [("table", .string table), ("column", .string column), ("from", old.toJson),
      ("to", new.toJson)]
  | setNotNull table column | setAllowNull table column =>
    [("table", .string table), ("column", .string column)]

def toJson (c : Change) : Json := .tagged c.kind.name (.object c.payload)

def tablePayload? (value : Json) : Option Table := do
  let [table] ← value.record ["table"] | none
  Json.required Table.ofJson? table

def columnPayload? (value : Json) : Option (String × Column) := do
  let [table, column] ← value.record ["table", "column"] | none
  return (← Json.required Json.asString? table, ← Json.required Column.ofJson? column)

def joinPayload? (value : Json) : Option (Join × Side) := do
  let [join, referencing] ← value.record ["join", "referencing"] | none
  return (← Json.required Join.ofJson? join, ← Json.required Side.ofJson? referencing)

def namesPayload? (value : Json) : Option (String × String) := do
  let [table, column] ← value.record ["table", "column"] | none
  return (← Json.required Json.asString? table, ← Json.required Json.asString? column)

def keyPayload? (value : Json) : Option Change := do
  let [table, old, new] ← value.record ["table", "from", "to"] | none
  let keyOf := Json.required (Json.asList? Json.asString?)
  return .setPrimaryKey (← Json.required Json.asString? table) (← keyOf old) (← keyOf new)

def typePayload? (value : Json) : Option Change := do
  let [table, column, old, new] ← value.record ["table", "column", "from", "to"] | none
  return .setColumnType (← Json.required Json.asString? table) (← Json.required Json.asString? column)
    (← Json.required SqlType.ofJson? old) (← Json.required SqlType.ofJson? new)

def ofTagged? (tag : String) (value : Json) : Option Change :=
  match tag with
  | "AddTable" => (tablePayload? value).map addTable
  | "DropTable" => (tablePayload? value).map dropTable
  | "AddColumn" => (columnPayload? value).map fun (table, column) => addColumn table column
  | "DropColumn" => (columnPayload? value).map fun (table, column) => dropColumn table column
  | "AddJoin" => (joinPayload? value).map fun (join, referencing) => addJoin join referencing
  | "DropJoin" => (joinPayload? value).map fun (join, referencing) => dropJoin join referencing
  | "SetPrimaryKey" => keyPayload? value
  | "SetColumnType" => typePayload? value
  | "SetNotNull" => (namesPayload? value).map fun (table, column) => setNotNull table column
  | "SetAllowNull" => (namesPayload? value).map fun (table, column) => setAllowNull table column
  | _ => none

def ofJson? (value : Json) : Option Change :=
  match value.asTagged? with
  | some (.carrying tag payload) => ofTagged? tag payload
  | _ => none

end Change

namespace Token

def toJson (t : Token) : Json :=
  .object [("direction", .string t.direction.word), ("change", t.change.toJson)]

def ofJson? (value : Json) : Option Token := do
  let [direction, change] ← value.record ["direction", "change"] | none
  return ⟨← Json.required Direction.ofJson? direction, ← Json.required Change.ofJson? change⟩

end Token

def Plan.toJson (p : Plan) : Json :=
  .object [("tokens", .array Token.toJson p.tokens), ("ambiguous", .strings p.ambiguous)]

def Failure.toJson (f : Failure) : Json :=
  .object [("token", f.token.toJson), ("message", .string f.message)]

def RenderedToken.toJson (t : RenderedToken) : Json :=
  .object [("token", t.token.toJson), ("statements", .strings (t.statements.map Statement.sql))]

def BatchReport.toJson (r : BatchReport) : Json :=
  .object [("statements", .array RenderedToken.toJson r.statements),
    ("model_changes", .nat r.modelChanges),
    ("validation", .object [("failures", .array Failure.toJson r.failures)])]

end SchemaDrift
