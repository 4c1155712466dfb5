/-
  SchemaDrift/Model/Edit.lean
  ===========================
  **Adding and removing tables and joins.**

  An edit that succeeds gives the new model, what it was asked for, and the events
  that an observer of the model sees: which joins were added and which removed, in
  order.  An edit that fails gives an error and no model, so that the old one stays.
  Removing a table removes the joins that touch it, and whenever the joins change the
  model is compiled again.
-/
import SchemaDrift.Model.Naming

namespace SchemaDrift

/-- What an observer of a model is told. -/
inductive JoinEvent where
  | added (join : Join)
  | removed (join : Join)
deriving Repr, DecidableEq

/-- The outcome of an edit. -/
structure Edited (α : Type) where
  result : α
  model : Model
  events : List JoinEvent := []
deriving Repr, DecidableEq

/-- An edit that yields nothing but the new model. -/
def Edited.done (m : Model) (events : List JoinEvent := []) : Edited Unit := ⟨(), m, events⟩

namespace Model

/-- Adds a table behind the others, unless there is one of its name. -/
def addTable (m : Model) (t : Table) : Except SchemaError (Edited Unit) :=
  match m.findTable? t.name with
  | some _ => .error (.invalidState (.tableExists t.name))
  | none => .ok (.done { m with tables := m.tables ++ [t] })

/-- Removes the first table of a name, and every join that touches this name. -/
def removeTable (m : Model) (name : String) : Except SchemaError (Edited Table) :=
  match m.findTable? name with
  | none => .error (.invalidState (.tableMissing name))
  | some t =>
    .ok
      { result := t
        model := compile
          { m with
            tables := m.tables.eraseP fun t => sameName t.name name
            joins := m.joins.filter fun j => !j.touches name }
        events := (m.joins.filter fun j => j.touches name).map .removed }

def addJoin (m : Model) (j : Join) : Edited Unit :=
  .done (compile { m with joins := m.joins ++ [j] }) [.added j]

/-- The position of the join that a removal of `j` takes out: the first one equal to `j`, or else
    the first one with its signature. -/
def matchingJoin? (m : Model) (j : Join) : Option Nat :=
  (m.joins.findIdx? (· == j)).or (m.joins.findIdx? fun k => k.signature == j.signature)

/-- Removes the join that matches `j`; without one the model stays as it is. -/
def removeJoin (m : Model) (j : Join) : Edited (Option Join) :=
  match (m.matchingJoin? j).bind fun position => (m.joins[position]?).map (position, ·) with
  | none => { result := none, model := m }
  | some (position, removed) =>
    { result := some removed
      model := compile { m with joins := m.joins.eraseIdx position }
      events := [.removed removed] }

end Model

end SchemaDrift
