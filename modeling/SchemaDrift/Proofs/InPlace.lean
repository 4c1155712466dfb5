/-
  SchemaDrift/Proofs/InPlace.lean
  ===============================
  **A change carried out in place does what the change does.**

  Every action first looks at all that may be refused, and writes only then.  So where it
  fails it has written nothing, and where it does not, its writes add up to the edit of the
  model: two writes to one table are one (`modifyTable_modifyTable`), and the joins that go
  with a table are told one by one, in their order.

  A write to a table goes to the first one of its name.  No write changes the name of a
  table, so that the second one goes where the first one went, also in a model that uses a
  name twice.  Main statement: `run_inPlace`.
-/
import SchemaDrift.Change.InPlace

namespace SchemaDrift

/-! ### Running an action -/

namespace InPlace

variable {α β : Type} (h : History)

theorem run_bind (action : InPlace α) (next : α → InPlace β) :
    run (action >>= next) h =
      match run action h with
      | (.ok a, h') => run (next a) h'
      | (.error e, h') => (.error e, h') := by
  simp only [run, ExceptT.run_bind, StateT.run_bind]
  rcases StateT.run (ExceptT.run action) h with ⟨outcome, h'⟩
  cases outcome <;> rfl

@[simp] theorem run_get : run (get : InPlace History) h = (.ok h, h) := rfl

@[simp] theorem run_write (change : Model → Model) :
    run (write change) h = (.ok (), { h with model := change h.model }) := rfl

@[simp] theorem run_tell (event : JoinEvent) :
    run (tell event) h = (.ok (), { h with events := h.events ++ [event] }) := rfl

@[simp] theorem run_require (check : Model → Except SchemaError α) :
    run (require check) h = (check h.model, h) := by
  rw [require, run_bind, run_get]
  dsimp only
  cases check h.model <;> rfl

theorem run_tellAll (js : List Join) :
    run (js.forM fun j => tell (.removed j)) h =
      (.ok (), { h with events := h.events ++ js.map .removed }) := by
  induction js generalizing h with
  | nil =>
    rw [List.map_nil, List.append_nil]
    rfl
  | cons j js ih =>
    change run (tell (.removed j) >>= fun _ => js.forM _) h = _
    rw [run_bind, run_tell]
    dsimp only
    rw [ih, List.map_cons, List.append_assoc]
    rfl

end InPlace

/-! ### Writing to a table twice -/

theorem modifyFirst_modifyFirst {α : Type} {test : α → Bool} {first second : α → α}
    (h : ∀ x, test x = true → test (first x) = true) (xs : List α) :
    modifyFirst test second (modifyFirst test first xs) =
      modifyFirst test (fun x => second (first x)) xs := by
  induction xs with
  | nil => rfl
  | cons x xs ih =>
    rw [modifyFirst, modifyFirst]
    by_cases hx : test x = true
    · rw [if_pos hx, if_pos hx, modifyFirst, if_pos (h x hx)]
    · rw [if_neg hx, if_neg hx, modifyFirst, if_neg hx, ih]

/-- Two changes of one table are one, where the first keeps the name. -/
theorem modifyTable_modifyTable {first second : Table → Table}
    (hname : ∀ t, (first t).name = t.name) (m : Model) (name : String) :
    (m.modifyTable name first).modifyTable name second =
      m.modifyTable name fun t => second (first t) := by
  have hsame : ∀ t : Table, sameName t.name name = true → sameName (first t).name name = true := by
    intro t ht
    rwa [hname]
  rw [Model.modifyTable, Model.modifyTable, Model.modifyTable, modifyFirst_modifyFirst hsame]

/-! ### Actions that look before they write -/

/-- The outcome of an edit, and what it leaves: its model with the events so far and its own, or
    all as it was. -/
def History.follow (h : History) :
    Except SchemaError (Edited Unit) → Except SchemaError Unit × History
  | .ok edited => (.ok (), ⟨edited.model, h.events ++ edited.events⟩)
  | .error e => (.error e, h)

section Follow

open InPlace

variable {α : Type} {h : History}

/-- An action that looks at the model follows a computation that does, if what comes after the
    look follows what comes after it there. -/
theorem run_require_bind {check : Model → Except SchemaError α} {next : α → InPlace Unit}
    {rest : α → Except SchemaError Model}
    (hnext : ∀ a, run (next a) h = h.follow ((rest a).map (.done ·))) :
    run (require check >>= next) h = h.follow ((check h.model >>= rest).map (.done ·)) := by
  rw [run_bind, run_require]
  cases check h.model with
  | error e => rfl
  | ok a => exact hnext a

/-- The same for an action that refuses under a condition. -/
theorem run_refuse {p : Prop} [Decidable p] {e : SchemaError} {next : Unit → InPlace Unit}
    {rest : Unit → Except SchemaError Model}
    (hnext : run (next ()) h = h.follow ((rest ()).map (.done ·))) :
    run (if p then throw e >>= next else next ()) h =
      h.follow ((if p then throw e >>= rest else rest ()).map (.done ·)) := by
  by_cases hp : p
  · rw [if_pos hp, if_pos hp]
    rfl
  · rw [if_neg hp, if_neg hp, hnext]

theorem run_writeTable {name : String} {change : Table → Table} :
    run (writeTable name change) h =
      h.follow ((pure (h.model.modifyTable name change) : Except SchemaError Model).map
        (.done ·)) := by
  have hevents : h.events = h.events ++ [] := (List.append_nil _).symm
  rw [writeTable, run_write]
  exact congrArg (fun events => (Except.ok (), (⟨_, events⟩ : History))) hevents

theorem run_writeTable_twice {name : String} {first second : Table → Table}
    (hname : ∀ t, (first t).name = t.name) :
    run (writeTable name first >>= fun _ => writeTable name second) h =
      h.follow ((pure (h.model.modifyTable name fun t => second (first t)) :
        Except SchemaError Model).map (.done ·)) := by
  rw [← run_writeTable, run_bind, writeTable, run_write]
  dsimp only
  rw [writeTable, run_write, writeTable, run_write, modifyTable_modifyTable hname]

/-! ### One kind of change after the other -/

theorem run_addTable (t : Table) : run (addTable t) h = h.follow (h.model.addTable t) := by
  rw [addTable, run_bind, run_get, Model.addTable]
  dsimp only
  cases h.model.findTable? t.name with
  | some found => rfl
  | none => simp [History.follow, Edited.done]

theorem run_dropTable (name : String) :
    run (dropTable name) h =
      h.follow ((h.model.removeTable name).map fun edited => { edited with result := () }) := by
  rw [dropTable, run_bind, run_require, Model.requireTable, Model.removeTable]
  cases h.model.findTable? name with
  | none => rfl
  | some t => simp only [run_bind, run_write, run_get, run_tellAll, History.follow, Except.map]

theorem run_addColumn (table : String) (c : Column) :
    run (addColumn table c) h = h.follow ((h.model.addColumn table c).map (.done ·)) := by
  refine run_require_bind fun t => run_refuse ?_
  cases c.key with
  | false => exact run_writeTable
  | true => exact run_writeTable_twice fun _ => rfl

theorem run_dropColumn (table name : String) :
    run (dropColumn table name) h = h.follow ((h.model.dropColumn table name).map (.done ·)) :=
  run_require_bind fun _ => run_require_bind fun _ => run_writeTable_twice fun _ => rfl

theorem run_setPrimaryKey (table : String) (key : List String) :
    run (setPrimaryKey table key) h = h.follow ((h.model.setPrimaryKey table key).map (.done ·)) :=
  run_require_bind fun _ => run_require_bind fun _ => run_writeTable_twice fun _ => rfl

theorem run_setColumnType (table column : String) (type : SqlType) :
    run (setColumnType table column type) h =
      h.follow ((h.model.setColumnType table column type).map (.done ·)) :=
  run_require_bind fun _ => run_require_bind fun _ => run_writeTable

theorem run_setNullable (table column : String) (nullable : Bool) :
    run (setNullable table column nullable) h =
      h.follow ((h.model.setNullable table column nullable).map (.done ·)) :=
  run_require_bind fun _ => run_require_bind fun _ => run_refuse run_writeTable

theorem run_addJoin (j : Join) : run (addJoin j) h = h.follow (h.model.addNewJoin j) := by
  rw [addJoin, run_bind, run_require, Model.addNewJoin]
  cases j.entities.toList.forM fun entity => (h.model.requireTable entity).map fun _ => () with
  | error e => rfl
  | ok _ =>
    dsimp only
    rw [run_bind, run_get]
    change run (if _ then _ else _) h = h.follow (if _ then _ else _)
    by_cases hthere : (h.model.joins.any fun k => k.signature == j.signature) = true
    · rw [if_pos hthere, if_pos hthere]
      rfl
    · rw [if_neg hthere, if_neg hthere]
      rfl

theorem run_dropJoin (j : Join) : run (dropJoin j) h = h.follow (h.model.dropExistingJoin j) := by
  rw [dropJoin, run_bind, run_get, Model.dropExistingJoin, Model.removeJoin]
  dsimp only
  cases (h.model.matchingJoin? j).bind fun position =>
      (h.model.joins[position]?).map (position, ·) with
  | none => rfl
  | some found => rfl

/-- **Carried out in place, a change has the outcome that it has on the model**, and where it is
    refused nothing is written and nothing told. -/
theorem run_inPlace (c : Change) (h : History) : run c.inPlace h = h.follow (c.apply h.model) := by
  cases c with
  | addTable t => exact run_addTable t
  | dropTable t => exact run_dropTable t.name
  | addColumn table column => exact run_addColumn table column
  | dropColumn table column => exact run_dropColumn table column.name
  | addJoin j referencing => exact run_addJoin j
  | dropJoin j referencing => exact run_dropJoin j
  | setPrimaryKey table old new => exact run_setPrimaryKey table new
  | setColumnType table column old new => exact run_setColumnType table column new
  | setNotNull table column => exact run_setNullable table column false
  | setAllowNull table column => exact run_setNullable table column true

end Follow

end SchemaDrift
