/-
  SchemaDrift/Resolution.lean
  ===========================
  **Bringing joins and foreign keys into a model.**

  Joins come from files and foreign keys from databases, both with spellings of their
  own.  `Join.resolve` rewrites a join to the spelling of a model and refuses one that
  names a table or a column the model does not have; `Join.respell` rewrites what the
  model knows and keeps the rest.  Loading a batch takes the joins that resolve and
  passes over the others.  No event tells of a loaded join.
-/
import SchemaDrift.ForeignKey
import SchemaDrift.Join.Orientation
import SchemaDrift.Model.Edit

namespace SchemaDrift

/-! ### Resolving joins -/

/-- The column of a table that a name denotes, as the table spells it. -/
def Table.spellColumn (t : Table) (name : String) : Except SchemaError String :=
  match t.findColumn? name with
  | some c => .ok c.name
  | none => .error (.unresolvedAttribute t.name name)

namespace Join

/-- The columns of one side of a join, as its table spells them. -/
def resolveSide (j : Join) (m : Model) (s : Side) : Except SchemaError (String × List String) := do
  let t ← m.tableOf j s
  let columns ← (j.columns s).mapM t.spellColumn
  return (t.name, columns)

/-- The join in the spelling of the model.  The left side is resolved before the right one, and
    a join without column pairs is refused last. -/
def resolve (j : Join) (m : Model) : Except SchemaError Join := do
  let (left, leftColumns) ← j.resolveSide m .left
  let (right, rightColumns) ← j.resolveSide m .right
  let condition ← Condition.ofPairs (List.zipWith Sides.mk leftColumns rightColumns)
  return { j with entities := ⟨left, right⟩, condition }

/-- The table name of a side as the model spells it, if the model has the table. -/
def respellEntity (j : Join) (m : Model) (s : Side) : String :=
  match m.findTable? (j.entity s) with
  | some t => t.name
  | none => j.entity s

/-- A column of a side as the model spells it, if the model has it. -/
def respellColumn (j : Join) (m : Model) (s : Side) (column : String) : String :=
  match (m.findTable? (j.entity s)).bind (·.findColumn? column) with
  | some c => c.name
  | none => column

/-- The join in the spelling of the model as far as the model knows its tables and columns. -/
def respell (j : Join) (m : Model) : Except SchemaError Join := do
  let pairs := j.condition.pairs.map fun pair =>
    ⟨j.respellColumn m .left pair.left, j.respellColumn m .right pair.right⟩
  let entities := ⟨j.respellEntity m .left, j.respellEntity m .right⟩
  let respelled ← ofPairs entities j.names j.cardinality j.dependentKey pairs
  return { respelled with synthesized := j.synthesized }

/-! ### Foreign keys as joins -/

/-- Whether the referencing columns are exactly the primary key of their table, so that the rows
    of the two tables correspond one to one. -/
def coversKey (m : Model) (fk : ForeignKey) : Bool :=
  match m.findTable? fk.table with
  | some t => t.primaryKey.length == fk.columns.length && fk.columns.all t.isKeyColumn
  | none => false

/-- The join of a foreign key, in canonical orientation.  Before it is turned, the referenced
    table is on the left. -/
def ofForeignKey (m : Model) (fk : ForeignKey) : Except SchemaError Join := do
  if fk.columns.length ≠ fk.referencedColumns.length then
    throw (.configuration
      (.foreignKeyArity fk.table fk.columns.length fk.referencedColumns.length))
  let (cardinality, dependentKey) :=
    if coversKey m fk then (Cardinality.oneToOne, DependentKey.left)
    else (Cardinality.oneToMany, DependentKey.none)
  let pairs := List.zipWith Sides.mk fk.referencedColumns fk.columns
  let join ← ofPairs ⟨fk.referencedTable, fk.table⟩ ⟨none, none⟩ cardinality dependentKey pairs
  return join.normalize

end Join

/-! ### Loading -/

/-- The joins of a batch that resolve, in the spelling of the model. -/
def Model.resolvable (m : Model) (joins : List Join) : List Join :=
  joins.filterMap fun j => (j.resolve m).toOption

/-- Adds the joins of a batch that resolve, and tells their number. -/
def Model.loadJoins (m : Model) (joins : List Join) : Edited Nat :=
  let loaded := m.resolvable joins
  { result := loaded.length, model := compile { m with joins := m.joins ++ loaded } }

/-- Adds the joins of the foreign keys of a batch, and tells their number. -/
def Model.loadForeignKeys (m : Model) (foreignKeys : List ForeignKey) : Edited Nat :=
  m.loadJoins (foreignKeys.filterMap fun fk => (Join.ofForeignKey m fk).toOption)

end SchemaDrift
