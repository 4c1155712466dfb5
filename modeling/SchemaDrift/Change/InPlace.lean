/-
  SchemaDrift/Change/InPlace.lean
  ===============================
  **Changes carried out in place, one write after the other.**

  `Change.apply` gives a new model or none at all.  Here the same changes are carried out
  on a model that is there: each of them looks at the model, writes one part of it, tells
  the observer, writes the next part.  An action that fails stops where it is, and whatever
  it has written by then stays written.

  What a refused change leaves behind is therefore a question of the order in which it
  looks and writes.
-/
import SchemaDrift.History

namespace SchemaDrift

/-- An action on a model under observation.  Where it fails, what it has written stays. -/
abbrev InPlace (α : Type) : Type := ExceptT SchemaError (StateM History) α

namespace InPlace

variable {α : Type}

/-- The outcome of an action, and the model and the events that it leaves. -/
def run (action : InPlace α) (h : History) : Except SchemaError α × History :=
  StateT.run (ExceptT.run action) h

/-- Looks at the model, which may be refused. -/
def require (check : Model → Except SchemaError α) : InPlace α := do
  let h ← get
  match check h.model with
  | .ok found => return found
  | .error e => throw e

def write (change : Model → Model) : InPlace Unit :=
  modify fun h => { h with model := change h.model }

def writeTable (name : String) (change : Table → Table) : InPlace Unit :=
  write (·.modifyTable name change)

def tell (event : JoinEvent) : InPlace Unit :=
  modify fun h => { h with events := h.events ++ [event] }

def addTable (t : Table) : InPlace Unit := do
  let h ← get
  if (h.model.findTable? t.name).isSome then
    throw (.invalidState (.tableExists t.name))
  write fun m => { m with tables := m.tables ++ [t] }

/-- Takes a table out, then the joins that touch its name, and tells of each of these. -/
def dropTable (name : String) : InPlace Unit := do
  let _ ← require (·.requireTable name)
  write fun m => { m with tables := m.tables.eraseP fun t => sameName t.name name }
  let h ← get
  write fun m => { m with joins := m.joins.filter fun j => !j.touches name }
  (h.model.joins.filter fun j => j.touches name).forM fun j => tell (.removed j)
  write Model.compile

/-- Enters a key column into the key before it is there. -/
def addColumn (table : String) (c : Column) : InPlace Unit := do
  let t ← require (·.requireTable table)
  if (t.findColumn? c.name).isSome then
    throw (.invalidState (.columnExists table c.name))
  if c.key then
    writeTable table fun t => { t with primaryKey := t.primaryKey ++ [c.name] }
  writeTable table fun t => { t with columns := t.columns ++ [c] }

def dropColumn (table name : String) : InPlace Unit := do
  let t ← require (·.requireTable table)
  let _ ← require fun _ => Model.requireColumn t table name
  writeTable table fun t =>
    { t with columns := t.columns.eraseP fun c => sameName c.name name }
  writeTable table fun t =>
    { t with primaryKey := t.primaryKey.filter fun entry => !sameName entry name }

/-- Tells of the join before it is there. -/
def addJoin (j : Join) : InPlace Unit := do
  require fun m => j.entities.toList.forM fun entity => (m.requireTable entity).map fun _ => ()
  let h ← get
  if h.model.joins.any fun k => k.signature == j.signature then
    throw (.invalidState (.joinExists j.display))
  tell (.added j)
  write fun m => { m with joins := m.joins ++ [j] }
  write Model.compile

def dropJoin (j : Join) : InPlace Unit := do
  let h ← get
  match (h.model.matchingJoin? j).bind fun position =>
      (h.model.joins[position]?).map (position, ·) with
  | none => throw (.invalidState (.joinMissing j.display))
  | some (position, removed) =>
    write fun m => { m with joins := m.joins.eraseIdx position }
    tell (.removed removed)
    write Model.compile

/-- Writes the flags of the columns, then the key. -/
def setPrimaryKey (table : String) (key : List String) : InPlace Unit := do
  let t ← require (·.requireTable table)
  require fun _ => key.forM fun name => (Model.requireColumn t table name).map fun _ => ()
  writeTable table fun t => { t with columns := t.columns.map (Table.markKey key) }
  writeTable table fun t => { t with primaryKey := key }

def setColumnType (table column : String) (type : SqlType) : InPlace Unit := do
  let t ← require (·.requireTable table)
  let _ ← require fun _ => Model.requireColumn t table column
  writeTable table (·.modifyColumn column fun c => { c with type })

def setNullable (table column : String) (nullable : Bool) : InPlace Unit := do
  let t ← require (·.requireTable table)
  let c ← require fun _ => Model.requireColumn t table column
  if nullable && c.key then
    throw (.invalidState (.keyColumnNull table column))
  writeTable table (·.modifyColumn column fun c => { c with nullable })

end InPlace

/-- The change as a series of looks and writes. -/
def Change.inPlace : Change → InPlace Unit
  | .addTable table => .addTable table
  | .dropTable table => .dropTable table.name
  | .addColumn table column => .addColumn table column
  | .dropColumn table column => .dropColumn table column.name
  | .addJoin join _ => .addJoin join
  | .dropJoin join _ => .dropJoin join
  | .setPrimaryKey table _ new => .setPrimaryKey table new
  | .setColumnType table column _ new => .setColumnType table column new
  | .setNotNull table column => .setNullable table column false
  | .setAllowNull table column => .setNullable table column true

end SchemaDrift
