/-
  SchemaDrift/History.lean
  ========================
  **Histories: a model under observation while it is edited.**

  An `Edit` is any of the ways in which a model changes: adding and removing tables and
  joins, compiling, loading joins or foreign keys, and applying a change.  A history
  keeps the model and all events that its observer was told.  An edit that fails leaves
  both as they are.
-/
import SchemaDrift.Change.Apply
import SchemaDrift.Resolution

namespace SchemaDrift

/-- A way to change a model. -/
inductive Edit where
  | addTable (table : Table)
  | removeTable (name : String)
  | addJoin (join : Join)
  | removeJoin (join : Join)
  | compile
  | loadJoins (joins : List Join)
  | loadForeignKeys (foreignKeys : List ForeignKey)
  | change (change : Change)
deriving Repr, DecidableEq

/-- What an edit yields besides the new model. -/
inductive EditResult where
  | done
  | table (table : Table)
  /-- The join that was removed, if there was one. -/
  | join (join : Option Join)
  /-- The number of joins that were loaded. -/
  | count (count : Nat)
deriving Repr, DecidableEq

def Edited.map {α β : Type} (f : α → β) (e : Edited α) : Edited β := { e with result := f e.result }

namespace Edit

def run (m : Model) : Edit → Except SchemaError (Edited EditResult)
  | addTable table => (m.addTable table).map (·.map fun _ => .done)
  | removeTable name => (m.removeTable name).map (·.map .table)
  | addJoin join => .ok ((m.addJoin join).map fun _ => .done)
  | removeJoin join => .ok ((m.removeJoin join).map .join)
  | compile => .ok ⟨.done, m.compile, []⟩
  | loadJoins joins => .ok ((m.loadJoins joins).map .count)
  | loadForeignKeys foreignKeys => .ok ((m.loadForeignKeys foreignKeys).map .count)
  | change c => (c.apply m).map (·.map fun _ => .done)

end Edit

/-- A model with the events that its observer was told. -/
structure History where
  model : Model
  events : List JoinEvent := []
deriving Repr, DecidableEq

namespace History

def step (h : History) (e : Edit) : History :=
  match e.run h.model with
  | .ok edited => ⟨edited.model, h.events ++ edited.events⟩
  | .error _ => h

def after (h : History) (edits : List Edit) : History := edits.foldl step h

end History

end SchemaDrift
