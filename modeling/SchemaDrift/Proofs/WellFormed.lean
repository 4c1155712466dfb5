/-
  SchemaDrift/Proofs/WellFormed.lean
  ==================================
  **Models that say one thing about everything.**

  A table keeps its key in two places and a model finds its tables and columns by
  name, so a decoded model can contradict itself.  `Table.Consistent` says that it
  does not: every column has a name of its own, the key lists each of its columns
  once, a column is flagged exactly when the key lists it, and no key column allows
  NULL.  `Model.WellFormed` asks this of every table, a name of its own for each of
  them, and of every join that its tables are there, that their names are not blank,
  that it has a pair of columns; and of all names that they can be told apart inside
  a signature.

  All of it can be decided, and so can be evaluated on a model at hand.
-/
import SchemaDrift.Inclusion
import SchemaDrift.Proofs.Keyed
import SchemaDrift.Proofs.Outcome
import SchemaDrift.Proofs.Signature

namespace SchemaDrift

instance Side.decidableForall (p : Side → Prop) [DecidablePred p] : Decidable (∀ s, p s) :=
  decidable_of_iff (p .left ∧ p .right)
    ⟨fun h s => by cases s; exacts [h.1, h.2], fun h => ⟨h .left, h .right⟩⟩

/-! ### Tables -/

namespace Table

abbrev columnAt (t : Table) (key : String) : Option Column := entryAt Column.matchKey t.columns key

theorem findColumn?_eq (t : Table) (name : String) :
    t.findColumn? name = t.columnAt (foldName name) := rfl

/-- The folded names of the key columns, in key order. -/
def foldedKey (t : Table) : List String := t.primaryKey.map foldName

/-- A table whose parts agree with each other. -/
structure Consistent (t : Table) : Prop where
  columns_distinct : (t.columns.map Column.matchKey).Nodup
  key_distinct : t.foldedKey.Nodup
  key_found : ∀ name ∈ t.primaryKey, (t.findColumn? name).isSome = true
  key_flagged : ∀ c ∈ t.columns, c.key = t.isKeyColumn c.name
  key_notNull : ∀ c ∈ t.columns, c.key = true → c.nullable = false

theorem consistent_iff {t : Table} :
    t.Consistent ↔ (t.columns.map Column.matchKey).Nodup ∧ t.foldedKey.Nodup ∧
      (∀ name ∈ t.primaryKey, (t.findColumn? name).isSome = true) ∧
      (∀ c ∈ t.columns, c.key = t.isKeyColumn c.name) ∧
      (∀ c ∈ t.columns, c.key = true → c.nullable = false) :=
  ⟨fun h => ⟨h.1, h.2, h.3, h.4, h.5⟩, fun ⟨h₁, h₂, h₃, h₄, h₅⟩ => ⟨h₁, h₂, h₃, h₄, h₅⟩⟩

instance (t : Table) : Decidable t.Consistent := decidable_of_iff _ consistent_iff.symm

theorem Consistent.key_iff {t : Table} (h : t.Consistent) {key : String} {c : Column}
    (hc : t.columnAt key = some c) : c.key = true ↔ key ∈ t.foldedKey := by
  rw [h.key_flagged c (mem_of_entryAt hc), isKeyColumn, namedIn_iff]
  change Column.matchKey c ∈ _ ↔ _
  rw [keyOf_entryAt hc, foldedKey]

theorem Consistent.found {t : Table} (h : t.Consistent) {key : String}
    (hkey : key ∈ t.foldedKey) : (t.columnAt key).isSome = true := by
  obtain ⟨name, hname, rfl⟩ := List.mem_map.1 hkey
  exact h.key_found name hname

theorem Consistent.notMem_key_of_none {t : Table} (h : t.Consistent) {key : String}
    (hnone : t.columnAt key = none) : key ∉ t.foldedKey := by
  intro hmem
  have hfound := h.found hmem
  simp [hnone] at hfound

/-- A column that allows NULL is not in the key. -/
theorem Consistent.notMem_key {t : Table} (h : t.Consistent) {key : String} {c : Column}
    (hc : t.columnAt key = some c) (hnull : c.nullable = true) : key ∉ t.foldedKey := by
  intro hmem
  have := h.key_notNull c (mem_of_entryAt hc) ((h.key_iff hc).2 hmem)
  simp [hnull] at this

end Table

/-! ### Models -/

namespace Model

abbrev tableAt (m : Model) (key : String) : Option Table := entryAt Table.matchKey m.tables key

theorem findTable?_eq (m : Model) (name : String) :
    m.findTable? name = m.tableAt (foldName name) := rfl

/-- Every name that a model uses for a table or a column. -/
def identifiers (m : Model) : List String :=
  m.tables.flatMap (fun t => t.name :: t.columns.map Column.name ++ t.primaryKey) ++
    m.joins.flatMap Join.identifiers

/-- A model whose parts agree with each other and can be told apart. -/
structure WellFormed (m : Model) : Prop where
  tables_distinct : (m.tables.map Table.matchKey).Nodup
  tables_consistent : ∀ t ∈ m.tables, t.Consistent
  joins_complete : ∀ j ∈ m.joins, ∀ s, (m.findTable? (j.entity s)).isSome = true
  joins_named : ∀ j ∈ m.joins, ∀ s, isBlank (j.entity s) = false
  joins_paired : ∀ j ∈ m.joins, j.condition.pairs ≠ []
  identifiers_plain : ∀ name ∈ m.identifiers, isPlain name = true

theorem wellFormed_iff {m : Model} :
    m.WellFormed ↔ (m.tables.map Table.matchKey).Nodup ∧ (∀ t ∈ m.tables, t.Consistent) ∧
      (∀ j ∈ m.joins, ∀ s, (m.findTable? (j.entity s)).isSome = true) ∧
      (∀ j ∈ m.joins, ∀ s, isBlank (j.entity s) = false) ∧
      (∀ j ∈ m.joins, j.condition.pairs ≠ []) ∧
      (∀ name ∈ m.identifiers, isPlain name = true) :=
  ⟨fun h => ⟨h.1, h.2, h.3, h.4, h.5, h.6⟩,
    fun ⟨h₁, h₂, h₃, h₄, h₅, h₆⟩ => ⟨h₁, h₂, h₃, h₄, h₅, h₆⟩⟩

instance (m : Model) : Decidable m.WellFormed := decidable_of_iff _ wellFormed_iff.symm

theorem WellFormed.consistent {m : Model} (h : m.WellFormed) {key : String} {t : Table}
    (ht : m.tableAt key = some t) : t.Consistent := h.tables_consistent t (mem_of_entryAt ht)

theorem WellFormed.legible {m : Model} (h : m.WellFormed) {j : Join} (hj : j ∈ m.joins) :
    j.Legible where
  plain name hname :=
    h.identifiers_plain name (List.mem_append_right _ (List.mem_flatMap.2 ⟨j, hj, hname⟩))
  paired := h.joins_paired j hj

theorem isOk_tableOf {m : Model} {j : Join} {s : Side} :
    (m.tableOf j s).map (fun _ => ()) = .ok () ↔
      (m.tableAt (foldName (j.entity s))).isSome = true := by
  rw [tableOf, findTable?_eq]
  cases m.tableAt (foldName (j.entity s)) <;> simp [Except.map]

theorem validateJoins_eq_ok {m : Model} :
    m.validateJoins = .ok () ↔
      ∀ j ∈ m.joins, ∀ s, (m.tableAt (foldName (j.entity s))).isSome = true := by
  rw [validateJoins, forM_eq_ok]
  refine forall₂_congr fun j _ => ?_
  rw [forM_eq_ok, Side.forall_mem_both]
  exact forall_congr' fun s => isOk_tableOf

end Model

end SchemaDrift
