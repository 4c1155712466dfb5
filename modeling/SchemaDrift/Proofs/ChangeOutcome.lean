/-
  SchemaDrift/Proofs/ChangeOutcome.lean
  =====================================
  **When a change is applied, and what it leaves.**

  One equation for each form of change says which models it is applied to and what the
  outcome is.  The changes inside a table share one (`apply_inTable_eq_ok`): such a change
  is applied where its table is there and takes it, and then this table, the first one of
  its name, is all that is different.  Nothing is assumed of the model, so that names may
  occur twice.
-/
import SchemaDrift.Proofs.TableEdit

namespace SchemaDrift

/-! ### What a change requires -/

theorem requireTable_eq_ok {m : Model} {name : String} {t : Table} :
    m.requireTable name = .ok t ↔ m.findTable? name = some t := by
  rw [Model.requireTable]
  cases m.findTable? name with
  | none => simp
  | some found => simp

theorem requireColumn_eq_ok {t : Table} {table name : String} {c : Column} :
    Model.requireColumn t table name = .ok c ↔ t.findColumn? name = some c := by
  rw [Model.requireColumn]
  cases t.findColumn? name with
  | none => simp
  | some found => simp

/-! ### Changes inside a table -/

theorem modifyFirst_congr {α : Type} {test : α → Bool} {change change' : α → α} {xs : List α}
    {x : α} (hx : xs.find? test = some x) (h : change x = change' x) :
    modifyFirst test change xs = modifyFirst test change' xs := by
  induction xs with
  | nil => rfl
  | cons y ys ih =>
    rw [modifyFirst, modifyFirst]
    by_cases hy : test y = true
    · rw [List.find?_cons_of_pos hy] at hx
      obtain rfl : y = x := Option.some.inj hx
      rw [if_pos hy, if_pos hy, h]
    · rw [List.find?_cons_of_neg hy] at hx
      rw [if_neg hy, if_neg hy, ih hx]

/-- The model with another table in place of the first one of a name. -/
def Model.replaceTable (m : Model) (name : String) (t : Table) : Model :=
  m.modifyTable name fun _ => t

theorem modifyTable_eq_replaceTable {m : Model} {name : String} {t : Table}
    (ht : m.findTable? name = some t) (change : Table → Table) :
    m.modifyTable name change = m.replaceTable name (change t) := by
  rw [Model.replaceTable, Model.modifyTable, Model.modifyTable, modifyFirst_congr ht]
  rfl

section InTable

variable {m : Model} {table : String}

/-- What follows once the table is found decides the outcome. -/
theorem done_eq_ok {rest : Table → Except SchemaError Model} {edit : Table → Option Table}
    (h : ∀ t, m.findTable? table = some t → ∀ m', rest t = .ok m' ↔
      ∃ t', edit t = some t' ∧ m' = m.replaceTable table t') {edited : Edited Unit} :
    (m.requireTable table >>= rest).map (.done ·) = .ok edited ↔
      ∃ t t', m.findTable? table = some t ∧ edit t = some t' ∧
        edited = .done (m.replaceTable table t') := by
  simp only [map_eq_ok, bind_eq_ok, requireTable_eq_ok]
  constructor
  · rintro ⟨m', ⟨t, ht, hrest⟩, rfl⟩
    obtain ⟨t', hedit, rfl⟩ := (h t ht m').1 hrest
    exact ⟨t, t', ht, hedit, rfl⟩
  · rintro ⟨t, t', ht, hedit, rfl⟩
    exact ⟨_, ⟨t, ht, (h t ht _).2 ⟨t', hedit, rfl⟩⟩, rfl⟩

/-- The same for a change that requires a column, and may refuse the column it finds. -/
theorem requireColumn_bind_eq_ok {t : Table} (ht : m.findTable? table = some t) {name : String}
    {refuses : Column → Bool} {change : Table → Table} {rest : Column → Except SchemaError Model}
    (hrest : ∀ c m', rest c = .ok m' ↔ refuses c = false ∧ m.modifyTable table change = m')
    (m' : Model) :
    (Model.requireColumn t table name >>= rest) = .ok m' ↔
      ∃ t', ((t.findColumn? name).bind fun c => if refuses c then none else some (change t)) =
        some t' ∧ m' = m.replaceTable table t' := by
  simp only [bind_eq_ok, requireColumn_eq_ok, hrest, Option.bind_eq_some_iff,
    modifyTable_eq_replaceTable ht]
  constructor
  · rintro ⟨c, hc, hkept, rfl⟩
    exact ⟨change t, ⟨c, hc, by simp [hkept]⟩, rfl⟩
  · rintro ⟨t', ⟨c, hc, hedit⟩, rfl⟩
    split at hedit
    next => cases hedit
    next hkept =>
      cases hedit
      exact ⟨c, hc, by simpa using hkept, rfl⟩

end InTable

theorem apply_inTable_eq_ok {c : Change} (hc : c.kind.isInTable = true) {m : Model}
    {edited : Edited Unit} :
    c.apply m = .ok edited ↔
      ∃ t t', m.findTable? c.table = some t ∧ c.editTable t = some t' ∧
        edited = .done (m.replaceTable c.table t') := by
  cases c with
  | addColumn table column =>
    apply done_eq_ok
    intro t ht m'
    refine refuse_eq_ok.trans ?_
    simp only [Change.editTable, modifyTable_eq_replaceTable ht, pure_eq_ok]
    constructor
    · rintro ⟨hfree, rfl⟩
      exact ⟨_, if_neg hfree, rfl⟩
    · rintro ⟨t', hedit, rfl⟩
      split at hedit
      next => cases hedit
      next hfree =>
        cases hedit
        exact ⟨hfree, rfl⟩
  | dropColumn table column =>
    apply done_eq_ok
    intro t ht m'
    have hedit : (Change.dropColumn table column).editTable t =
        (t.findColumn? column.name).bind fun _ =>
          if false then none else some (t.dropColumn column.name) := by
      rw [Change.editTable]
      cases t.findColumn? column.name <;> rfl
    rw [hedit]
    apply requireColumn_bind_eq_ok ht
    intro c m₂
    exact pure_eq_ok.trans (by simp)
  | setPrimaryKey table old new =>
    apply done_eq_ok
    intro t ht m'
    have hkey : (new.forM fun name => (Model.requireColumn t table name).map fun _ => ()) = .ok () ↔
        (new.all fun name => (t.findColumn? name).isSome) = true := by
      rw [forM_eq_ok]
      simp [map_eq_ok, requireColumn_eq_ok, Option.isSome_iff_exists]
    simp only [bind_eq_ok, hkey, pure_eq_ok, Change.editTable, modifyTable_eq_replaceTable ht]
    constructor
    · rintro ⟨⟨⟩, hall, rfl⟩
      exact ⟨_, if_pos hall, rfl⟩
    · rintro ⟨t', hedit, rfl⟩
      split at hedit
      next hall =>
        cases hedit
        exact ⟨(), hall, rfl⟩
      next => cases hedit
  | setColumnType table column old new =>
    apply done_eq_ok
    intro t ht m'
    have hedit : (Change.setColumnType table column old new).editTable t =
        (t.findColumn? column).bind fun _ =>
          if false then none else some (t.modifyColumn column fun c => { c with type := new }) := by
      rw [Change.editTable]
      cases t.findColumn? column <;> rfl
    rw [hedit]
    apply requireColumn_bind_eq_ok ht
    intro c m₂
    exact pure_eq_ok.trans (by simp)
  | setNotNull table column =>
    apply done_eq_ok
    intro t ht m'
    have hedit : (Change.setNotNull table column).editTable t =
        (t.findColumn? column).bind fun _ =>
          if false then none
          else some (t.modifyColumn column fun c => { c with nullable := false }) := by
      rw [Change.editTable]
      cases t.findColumn? column <;> rfl
    rw [hedit]
    apply requireColumn_bind_eq_ok ht
    intro c m₂
    exact pure_eq_ok.trans (by simp)
  | setAllowNull table column =>
    apply done_eq_ok
    intro t ht m'
    apply requireColumn_bind_eq_ok ht
    intro c m₂
    exact refuse_eq_ok.trans (by simp [pure_eq_ok])
  | addTable table => cases hc
  | dropTable table => cases hc
  | addJoin join referencing => cases hc
  | dropJoin join referencing => cases hc

/-! ### Changes of whole tables -/

theorem apply_addTable_eq_ok {t : Table} {m : Model} {edited : Edited Unit} :
    (Change.addTable t).apply m = .ok edited ↔
      m.findTable? t.name = none ∧ edited = .done { m with tables := m.tables ++ [t] } := by
  rw [Change.apply, Model.addTable]
  cases m.findTable? t.name with
  | none => simp [eq_comm]
  | some found => simp

theorem apply_dropTable_eq_ok {t : Table} {m : Model} {edited : Edited Unit} :
    (Change.dropTable t).apply m = .ok edited ↔
      (m.findTable? t.name).isSome = true ∧
        edited = .done
          (Model.compile
            { m with
              tables := m.tables.eraseP fun u => sameName u.name t.name
              joins := m.joins.filter fun j => !j.touches t.name })
          ((m.joins.filter fun j => j.touches t.name).map .removed) := by
  rw [Change.apply, map_eq_ok, Model.removeTable]
  cases m.findTable? t.name with
  | none => simp
  | some found => simp [Edited.done, eq_comm]

/-! ### Changes of joins -/

theorem apply_addJoin_eq_ok {j : Join} {referencing : Side} {m : Model} {edited : Edited Unit} :
    (Change.addJoin j referencing).apply m = .ok edited ↔
      (∀ s, (m.findTable? (j.entity s)).isSome = true) ∧
        (∀ k ∈ m.joins, k.signature ≠ j.signature) ∧ edited = m.addJoin j := by
  have htables : (j.entities.toList.forM fun entity => (m.requireTable entity).map fun _ => ()) =
      .ok () ↔ ∀ s, (m.findTable? (j.entity s)).isSome = true := by
    rw [forM_eq_ok]
    simp only [map_eq_ok, requireTable_eq_ok, and_true, ← Option.isSome_iff_exists]
    exact Sides.forall_mem_toList
  rw [Change.apply, Model.addNewJoin, bind_eq_ok]
  constructor
  · rintro ⟨⟨⟩, hfound, hrest⟩
    obtain ⟨hnew, hedited⟩ := refuse_eq_ok.1 hrest
    refine ⟨htables.1 hfound, ?_, (pure_eq_ok.1 hedited).symm⟩
    simpa using hnew
  · rintro ⟨hfound, hnew, rfl⟩
    refine ⟨(), htables.2 hfound, refuse_eq_ok.2 ⟨?_, rfl⟩⟩
    simpa using hnew

theorem apply_dropJoin_eq_ok {j : Join} {referencing : Side} {m : Model} {edited : Edited Unit} :
    (Change.dropJoin j referencing).apply m = .ok edited ↔
      ∃ position removed, m.matchingJoin? j = some position ∧ m.joins[position]? = some removed ∧
        edited = .done (Model.compile { m with joins := m.joins.eraseIdx position })
          [.removed removed] := by
  rw [Change.apply, Model.dropExistingJoin, Model.removeJoin]
  cases m.matchingJoin? j with
  | none => simp
  | some position =>
    simp only [Option.bind_some, Option.some.injEq]
    cases hremoved : m.joins[position]? with
    | none => simp [hremoved]
    | some removed => simp [hremoved, Edited.done, eq_comm]

end SchemaDrift
