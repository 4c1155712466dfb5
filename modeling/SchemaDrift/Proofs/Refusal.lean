/-
  SchemaDrift/Proofs/Refusal.lean
  ===============================
  **Changes that are refused, and what becomes of the others.**

  A column of a primary key is never allowed to be NULL.  Which change a model refuses
  for this reason is told by `Model.keyRefusal?`.  A key column stays one as long as no
  change takes it away or sets the key (`HasKeyColumn.apply`), so that such a change is
  refused wherever it stands in a batch.

  A change that is refused leaves no trace in the model.  So the run of a batch of which
  some changes are refused is the run of the others, with a failure for each of those
  that are refused: `run_refusing`.
-/
import SchemaDrift.Execution
import SchemaDrift.Proofs.ModelEdit

namespace SchemaDrift

/-! ### Changes that a key forbids -/

/-- The error with which a model refuses to allow NULL in a column of its keys. -/
def Model.keyRefusal? (m : Model) : Change → Option SchemaError
  | .setAllowNull table column =>
    if ((m.findTable? table).bind (·.findColumn? column)).any Column.key then
      some (.invalidState (.keyColumnNull table column))
    else none
  | _ => none

theorem keyRefusal?_eq_some {m : Model} {c : Change} {e : SchemaError} :
    m.keyRefusal? c = some e ↔ ∃ table column t found, c = .setAllowNull table column ∧
      m.findTable? table = some t ∧ t.findColumn? column = some found ∧ found.key = true ∧
        e = .invalidState (.keyColumnNull table column) := by
  cases c with
  | setAllowNull table column =>
    simp only [Model.keyRefusal?, Option.ite_none_right_eq_some, Option.any_eq_true,
      Option.bind_eq_some_iff, Option.some.injEq]
    constructor
    · rintro ⟨⟨found, ⟨t, ht, hfound⟩, hkey⟩, rfl⟩
      exact ⟨table, column, t, found, rfl, ht, hfound, hkey, rfl⟩
    · rintro ⟨_, _, t, found, ⟨⟩, ht, hfound, hkey, rfl⟩
      exact ⟨⟨found, ⟨t, ht, hfound⟩, hkey⟩, rfl⟩
  | _ => simp [Model.keyRefusal?]

theorem apply_of_keyRefusal? {m : Model} {c : Change} {e : SchemaError}
    (h : m.keyRefusal? c = some e) : c.apply m = .error e := by
  obtain ⟨table, column, t, found, rfl, ht, hfound, hkey, rfl⟩ := keyRefusal?_eq_some.1 h
  rw [Change.apply, Model.setNullable, requireTable_eq_ok.2 ht]
  change (((Model.requireColumn t table column) >>= _).map _) = _
  rw [requireColumn_eq_ok.2 hfound]
  change ((if (true && found.key) = true then _ else _ : Except SchemaError Model).map _) = _
  rw [hkey]
  rfl

/-- A model with a key column under a key, in a table in which columns are told apart. -/
structure Model.HasKeyColumn (m : Model) (table column : String) : Prop where
  distinct : (m.tables.map Table.matchKey).Nodup
  found : ∃ t, m.tableAt table = some t ∧ (t.columns.map Column.matchKey).Nodup ∧
    ∃ c, t.columnAt column = some c ∧ c.key = true

/-- Whether changes of a kind keep the columns of a table, with their flags. -/
def ChangeKind.isInPlace : ChangeKind → Bool
  | setColumnType | setNotNull | setAllowNull => true
  | _ => false

/-- A change that leaves the column under a key in its table, with its flag. -/
def Change.SparesKey (c : Change) (table column : String) : Prop :=
  c.isAt table = true →
    c.kind.isInTable = true ∧ (c.concerns column = true → c.kind.isInPlace = true)

/-- A change in place refuses the column, because it is a key column, or leaves its flag. -/
theorem editColumn_inPlace {c : Change} (hc : c.kind.isInPlace = true) (key : String) (x : Column) :
    (c.editColumn key (some x) = none ∧ c.kind = .setAllowNull ∧ x.key = true) ∨
      ∃ y, c.editColumn key (some x) = some (some y) ∧ y.key = x.key := by
  cases c with
  | setColumnType table column old new =>
    right
    rw [Change.editColumn]
    split <;> exact ⟨_, rfl, rfl⟩
  | setNotNull table column =>
    right
    rw [Change.editColumn]
    split <;> exact ⟨_, rfl, rfl⟩
  | setAllowNull table column =>
    rw [Change.editColumn, Option.bind_some]
    split
    next =>
      split
      next hflag => exact .inl ⟨rfl, rfl, hflag⟩
      next => exact .inr ⟨_, rfl, rfl⟩
    next => exact .inr ⟨_, rfl, rfl⟩
  | _ => cases hc

namespace Model.HasKeyColumn

variable {m : Model} {table column : String}

theorem of_tables (h : m.HasKeyColumn table column) {m' : Model} (htables : m'.tables = m.tables) :
    m'.HasKeyColumn table column := by
  obtain ⟨hdistinct, hfound⟩ := h
  refine ⟨htables ▸ hdistinct, ?_⟩
  rw [Model.tableAt, htables]
  exact hfound

/-- A key column stays where it is as long as no change takes it away or sets the key. -/
theorem apply (h : m.HasKeyColumn table column) {c : Change} (hc : c.SparesKey table column)
    {edited : Edited Unit} (happly : c.apply m = .ok edited) :
    edited.model.HasKeyColumn table column := by
  rcases Bool.eq_false_or_eq_true c.kind.isJoin with hkind | hkind
  · cases c with
    | addJoin j referencing =>
      obtain ⟨-, -, rfl⟩ := apply_addJoin_eq_ok.1 happly
      exact h.of_tables rfl
    | dropJoin j referencing =>
      obtain ⟨position, removed, -, -, rfl⟩ := apply_dropJoin_eq_ok.1 happly
      exact h.of_tables rfl
    | _ => cases hkind
  · obtain ⟨slot, hslot, hstep⟩ := slotStep_of_apply h.distinct hkind happly
    obtain ⟨t, ht, hcolumns, x, hx, hkey⟩ := h.found
    refine ⟨hstep.distinct, ?_⟩
    rw [hstep.tables]
    split
    next heq =>
      obtain ⟨hinTable, hinPlace⟩ := hc (by simp [Change.isAt, hkind, heq])
      rw [heq, ht, editSlot_inTable hinTable, Option.bind_some] at hslot
      obtain ⟨t', hedit, rfl⟩ := Option.map_eq_some_iff.1 hslot
      obtain ⟨result, hresult, hedits⟩ := exists_editsTo_of_editTable hcolumns hinTable hedit
      have hcolumn := hresult column
      rw [hx] at hcolumn
      refine ⟨t', rfl, hedits.distinct, ?_⟩
      rw [hedits.columns]
      by_cases hconcerns : c.concerns column = true
      · rcases editColumn_inPlace (hinPlace hconcerns) column x with
          ⟨hrefused, -, -⟩ | ⟨y, hy, hflag⟩
        · rw [hrefused] at hcolumn
          cases hcolumn
        · rw [hy] at hcolumn
          exact ⟨y, (Option.some.inj hcolumn).symm, hflag.trans hkey⟩
      · rw [editColumn_of_not_concerns (Bool.not_eq_true _ ▸ hconcerns)] at hcolumn
        exact ⟨x, (Option.some.inj hcolumn).symm, hkey⟩
    next => exact ⟨t, ht, hcolumns, x, hx, hkey⟩

/-- Whoever has the key column refuses to allow NULL in it. -/
theorem keyRefusal? (h : m.HasKeyColumn (foldName table) (foldName column)) :
    m.keyRefusal? (.setAllowNull table column) =
      some (.invalidState (.keyColumnNull table column)) := by
  obtain ⟨t, ht, -, found, hfound, hkey⟩ := h.found
  exact keyRefusal?_eq_some.2 ⟨table, column, t, found, rfl, ht, hfound, hkey, rfl⟩

end Model.HasKeyColumn

/-! ### Batches in which some changes are refused -/

/-- What is recorded of a token that is refused. -/
def failureOf (refusal : Change → Option SchemaError) (t : Token) : Option Failure :=
  (refusal t.change).map fun e => ⟨t, e.message⟩

/-- **A batch in which some changes are refused is the batch of the others**, and reports those
    that are refused.  The invariant says that they are refused wherever they stand. -/
theorem run_refusing (d : Dialect) (refusal : Change → Option SchemaError) (Inv : Model → Prop)
    {ts : List Token} (hts : ∀ t ∈ ts, t.direction = .toModel)
    (hrefused : ∀ t ∈ ts, ∀ e, refusal t.change = some e →
      ∀ m, Inv m → t.change.apply m = .error e)
    (hinv : ∀ t ∈ ts, ∀ m edited, Inv m → t.change.apply m = .ok edited →
      Inv edited.model.compile)
    {x : Execution} (hx : Inv x.model) {m : Model}
    (h : x.model.runChanges Model.compile
      ((ts.map Token.change).filter fun c => (refusal c).isNone) = .ok m) :
    Execution.run d x ts =
      { report :=
          { x.report with
            modelChanges := x.report.modelChanges +
              (ts.map Token.change).countP fun c => (refusal c).isNone
            failures := x.report.failures ++ ts.filterMap (failureOf refusal) }
        model := m } := by
  induction ts generalizing x with
  | nil =>
    cases h
    simp [Execution.run]
  | cons t ts ih =>
    obtain ⟨ht, hts⟩ := List.forall_mem_cons.1 hts
    obtain ⟨hrefused, hrefuseds⟩ := List.forall_mem_cons.1 hrefused
    obtain ⟨hinv, hinvs⟩ := List.forall_mem_cons.1 hinv
    rw [List.map_cons] at h
    cases hrefusal : refusal t.change with
    | some e =>
      have hstep : x.step d t = { x with report := x.report.fail t e } := by
        simp only [Execution.step, ht, hrefused e hrefusal x.model hx]
      have hfailure : failureOf refusal t = some ⟨t, e.message⟩ := by
        rw [failureOf, hrefusal]
        rfl
      rw [List.filter_cons_of_neg (by simp [hrefusal])] at h
      rw [Execution.run, List.foldl_cons, hstep]
      refine (ih hts hrefuseds hinvs (x := { x with report := x.report.fail t e }) hx h).trans ?_
      rw [List.filterMap_cons_some hfailure, List.map_cons,
        List.countP_cons_of_neg (by simp [hrefusal]), BatchReport.fail, List.append_assoc]
      rfl
    | none =>
      rw [List.filter_cons_of_pos (by simp [hrefusal])] at h
      cases happly : t.change.apply x.model with
      | error e =>
        rw [Model.runChanges, List.foldlM_cons, happly] at h
        cases h
      | ok edited =>
        rw [runChanges_cons happly] at h
        have hstep : x.step d t =
            { report := { x.report with modelChanges := x.report.modelChanges + 1 }
              model := edited.model.compile } := by
          simp only [Execution.step, ht, happly]
        have hfailure : failureOf refusal t = none := by
          rw [failureOf, hrefusal]
          rfl
        rw [Execution.run, List.foldl_cons, hstep]
        refine (ih hts hrefuseds hinvs (x := ⟨_, edited.model.compile⟩)
          (hinv x.model edited hx happly) h).trans ?_
        rw [List.filterMap_cons_none hfailure, List.map_cons,
          List.countP_cons_of_pos (by simp [hrefusal]), Nat.add_comm (List.countP _ _) 1,
          ← Nat.add_assoc]

theorem failures_eq_nil_iff {refusal : Change → Option SchemaError} {ts : List Token} :
    ts.filterMap (failureOf refusal) = [] ↔ ∀ c ∈ ts.map Token.change, refusal c = none := by
  simp [List.filterMap_eq_nil_iff, failureOf]

/-- Every token of a batch is carried out or fails. -/
theorem countP_add_failures (refusal : Change → Option SchemaError) (ts : List Token) :
    ((ts.map Token.change).countP fun c => (refusal c).isNone) +
      (ts.filterMap (failureOf refusal)).length = ts.length := by
  induction ts with
  | nil => rfl
  | cons t ts ih =>
    rw [List.map_cons, List.length_cons, ← ih]
    cases hrefusal : refusal t.change with
    | none =>
      rw [List.filterMap_cons_none (by simp [failureOf, hrefusal]),
        List.countP_cons_of_pos (by simp [hrefusal]), Nat.add_right_comm]
    | some e =>
      have hfailure : failureOf refusal t = some ⟨t, e.message⟩ := by simp [failureOf, hrefusal]
      rw [List.filterMap_cons_some hfailure, List.countP_cons_of_neg (by simp [hrefusal])]
      rfl

end SchemaDrift
