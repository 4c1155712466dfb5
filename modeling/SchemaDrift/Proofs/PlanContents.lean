/-
  SchemaDrift/Proofs/PlanContents.lean
  ====================================
  **A plan lists the discrepancies of its models, each of them once.**

  A discrepancy is something that one model says and the other one does not.  Which
  there are is told by the tables, columns and joins of the two models alone
  (`Discrepancy.Between`), without a word about how they are found, and for each there
  is a change that settles it (`Discrepancy.SettledBy`).  Where no key is ambiguous the
  changes of a plan settle the discrepancies of its models one for one, so that none is
  missed, doubled or made up: `plan_settles`.

  The plan goes through three differences, of tables, of the columns of two tables, and
  of joins.  Each of the three is gone through by itself: the list of its discrepancies,
  what is in the list, that nothing is in it twice, and the changes that they lead to.
-/
import SchemaDrift.Proofs.Convergence
import SchemaDrift.Proofs.EmptyPlan

namespace SchemaDrift

/-! ### What may differ -/

/-- What an original and an imported table of one name may disagree on.  The columns `c` are the
    original's, the columns `d` the import's. -/
inductive TableDiscrepancy where
  | missingColumn (c : Column)
  | extraColumn (d : Column)
  | columnType (c d : Column)
  | columnNullability (c d : Column)
  | key
deriving DecidableEq

/-- What an original and an imported model may disagree on. -/
inductive Discrepancy where
  | missingTable (t : Table)
  | extraTable (u : Table)
  | inTable (t u : Table) (d : TableDiscrepancy)
  | missingJoin (j : Join)
  | extraJoin (k : Join)
deriving DecidableEq

section Entries

variable {α : Type} (keyOf : α → String) (xs ys : List α)

/-- Entries of two lists that have one key. -/
def Paired (x y : α) : Prop := x ∈ xs ∧ y ∈ ys ∧ keyOf x = keyOf y

/-- An entry of the first list whose key the second one does not have. -/
def Unpaired (x : α) : Prop := x ∈ xs ∧ keyOf x ∉ ys.map keyOf

end Entries

/-- Whether two tables do disagree on something. -/
def TableDiscrepancy.Between (t u : Table) : TableDiscrepancy → Prop
  | missingColumn c => Unpaired Column.matchKey t.columns u.columns c
  | extraColumn d => Unpaired Column.matchKey u.columns t.columns d
  | columnType c d => Paired Column.matchKey t.columns u.columns c d ∧ c.type ≠ d.type
  | columnNullability c d =>
    Paired Column.matchKey t.columns u.columns c d ∧ c.nullable ≠ d.nullable
  | key => t.foldedKey ≠ u.foldedKey

/-- Whether two models do disagree on something. -/
def Discrepancy.Between (original imported : Model) : Discrepancy → Prop
  | missingTable t => Unpaired Table.matchKey original.tables imported.tables t
  | extraTable u => Unpaired Table.matchKey imported.tables original.tables u
  | inTable t u d => Paired Table.matchKey original.tables imported.tables t u ∧ d.Between t u
  | missingJoin j => Unpaired Join.signature original.joins imported.joins j
  | extraJoin k => Unpaired Join.signature imported.joins original.joins k

/-- The change that makes the imported table agree with the original one. -/
def TableDiscrepancy.change (t u : Table) : TableDiscrepancy → Change
  | missingColumn c => .addColumn t.name c
  | extraColumn d => .dropColumn t.name d
  | columnType c d => .setColumnType t.name c.name d.type c.type
  | columnNullability c _ =>
    if c.nullable then .setAllowNull t.name c.name else .setNotNull t.name c.name
  | key => .setPrimaryKey t.name u.primaryKey t.primaryKey

/-- Whether a change makes the imported model agree with the original one.  The model that has a
    join decides its referencing side. -/
def Discrepancy.SettledBy (original imported : Model) : Discrepancy → Change → Prop
  | missingTable t, c => c = .addTable t
  | extraTable u, c => c = .dropTable u
  | inTable t u d, c => c = d.change t u
  | missingJoin j, c => ∃ s, j.referencingSide original = .ok s ∧ c = .addJoin j s
  | extraJoin k, c => ∃ spelled s, k.respell original = .ok spelled ∧
      k.referencingSide imported = .ok s ∧ c = .dropJoin spelled s

/-! ### Inside two tables -/

/-- The discrepancies of a column that two tables have. -/
def columnDiscrepancies (c d : Column) : List TableDiscrepancy :=
  (if c.type = d.type then [] else [.columnType c d]) ++
    (if c.nullable = d.nullable then [] else [.columnNullability c d])

theorem mem_columnDiscrepancies {c d : Column} {e : TableDiscrepancy} :
    e ∈ columnDiscrepancies c d ↔ (e = .columnType c d ∧ c.type ≠ d.type) ∨
      (e = .columnNullability c d ∧ c.nullable ≠ d.nullable) := by
  rw [columnDiscrepancies, List.mem_append]
  split <;> split <;> simp [*]

theorem nodup_columnDiscrepancies (c d : Column) : (columnDiscrepancies c d).Nodup := by
  rw [columnDiscrepancies]
  split <;> split <;> simp

theorem map_change_columnDiscrepancies (t u : Table) (c d : Column) :
    (columnDiscrepancies c d).map (TableDiscrepancy.change t u) = columnChanges t.name c d := by
  rw [columnDiscrepancies, columnChanges, List.map_append, apply_ite (List.map _),
    apply_ite (List.map _)]
  rfl

def keyDiscrepancies (t u : Table) : List TableDiscrepancy :=
  if t.foldedKey = u.foldedKey then [] else [.key]

theorem mem_keyDiscrepancies {t u : Table} {e : TableDiscrepancy} :
    e ∈ keyDiscrepancies t u ↔ e = .key ∧ t.foldedKey ≠ u.foldedKey := by
  rw [keyDiscrepancies]
  split <;> simp [*]

theorem nodup_keyDiscrepancies (t u : Table) : (keyDiscrepancies t u).Nodup := by
  rw [keyDiscrepancies]
  split <;> simp

theorem map_change_keyDiscrepancies (t u : Table) :
    (keyDiscrepancies t u).map (TableDiscrepancy.change t u) = keyChanges {} t u := by
  have hsame : (false || sameNames t.primaryKey u.primaryKey) = true ↔
      t.foldedKey = u.foldedKey := sameNames_iff
  rw [keyDiscrepancies, keyChanges, apply_ite (List.map _)]
  simp only [hsame]
  rfl

/-- A list that is put together from parts holds nothing twice if no part does and an entry tells
    its part. -/
theorem nodup_flatMap_of_unique {α β : Type} {xs : List α} {f : α → List β} (hxs : xs.Nodup)
    (hparts : ∀ x ∈ xs, (f x).Nodup) (hunique : ∀ x y z, z ∈ f x → z ∈ f y → x = y) :
    (xs.flatMap f).Nodup :=
  List.nodup_flatMap.2 ⟨hparts, hxs.imp fun hne z hz hz' => hne (hunique _ _ z hz hz')⟩

def Table.discrepancies (t u : Table) : List TableDiscrepancy :=
  let columns := difference Column.matchKey t.columns u.columns
  columns.onlyOriginal.map .missingColumn ++ columns.onlyImported.map .extraColumn ++
    columns.both.flatMap (fun (c, d) => columnDiscrepancies c d) ++ keyDiscrepancies t u

theorem map_change_discrepancies (t u : Table) :
    (t.discrepancies u).map (TableDiscrepancy.change t u) = tableChanges {} t u := by
  have hcolumns : columnDifference .all t u = difference Column.matchKey t.columns u.columns := by
    rw [columnDifference, Table.columnsIn_all, Table.columnsIn_all]
  simp only [Table.discrepancies, tableChanges, List.map_append, List.map_map, List.map_flatMap,
    hcolumns, map_change_columnDiscrepancies, map_change_keyDiscrepancies]
  rfl

section Inside

variable {t u : Table} (ht : (t.columns.map Column.matchKey).Nodup)
  (hu : (u.columns.map Column.matchKey).Nodup)

include ht hu

theorem mem_discrepancies {e : TableDiscrepancy} : e ∈ t.discrepancies u ↔ e.Between t u := by
  simp only [Table.discrepancies, List.mem_append, List.mem_map, List.mem_flatMap, Prod.exists,
    mem_onlyOriginal_iff ht, mem_onlyImported_iff hu, mem_both_iff ht hu, mem_columnDiscrepancies,
    mem_keyDiscrepancies]
  cases e with
  | missingColumn c => simp [TableDiscrepancy.Between, Unpaired]
  | extraColumn d => simp [TableDiscrepancy.Between, Unpaired]
  | columnType c d => simp [TableDiscrepancy.Between, Paired]
  | columnNullability c d => simp [TableDiscrepancy.Between, Paired]
  | key => simp [TableDiscrepancy.Between]

theorem nodup_discrepancies : (t.discrepancies u).Nodup := by
  let columns := difference Column.matchKey t.columns u.columns
  have hmissing : (columns.onlyOriginal.map TableDiscrepancy.missingColumn).Nodup :=
    (nodup_onlyOriginal ht).map fun _ _ h => TableDiscrepancy.missingColumn.inj h
  have hextra : (columns.onlyImported.map TableDiscrepancy.extraColumn).Nodup :=
    (nodup_onlyImported hu).map fun _ _ h => TableDiscrepancy.extraColumn.inj h
  have hboth : (columns.both.flatMap fun (c, d) => columnDiscrepancies c d).Nodup := by
    apply nodup_flatMap_of_unique (nodup_both ht)
    · rintro ⟨c, d⟩ -
      exact nodup_columnDiscrepancies c d
    · rintro ⟨c, d⟩ ⟨c', d'⟩ e he he'
      rw [mem_columnDiscrepancies] at he he'
      rcases he with ⟨rfl, -⟩ | ⟨rfl, -⟩
      · rcases he' with ⟨heq, -⟩ | ⟨heq, -⟩
        · cases heq
          rfl
        · cases heq
      · rcases he' with ⟨heq, -⟩ | ⟨heq, -⟩
        · cases heq
        · cases heq
          rfl
  refine ((hmissing.append hextra ?_).append hboth ?_).append (nodup_keyDiscrepancies t u) ?_
  · simp [List.Disjoint]
  · intro e he hcolumn
    obtain ⟨⟨c, d⟩, -, hcolumn⟩ := List.mem_flatMap.1 hcolumn
    rcases mem_columnDiscrepancies.1 hcolumn with ⟨rfl, -⟩ | ⟨rfl, -⟩
    · simp at he
    · simp at he
  · intro e he hkey
    obtain ⟨rfl, -⟩ := mem_keyDiscrepancies.1 hkey
    simp [mem_columnDiscrepancies] at he

end Inside

/-! ### Between two models -/

namespace Model

def tableDiscrepancies (original imported : Model) : List Discrepancy :=
  let tables := difference Table.matchKey original.tables imported.tables
  tables.onlyOriginal.map .missingTable ++ tables.onlyImported.map .extraTable ++
    tables.both.flatMap fun (t, u) => (t.discrepancies u).map (.inTable t u)

def joinDiscrepancies (original imported : Model) : List Discrepancy :=
  let joins := difference Join.signature original.joins imported.joins
  joins.onlyImported.map .extraJoin ++ joins.onlyOriginal.map .missingJoin

/-- A model whose joins connect named tables that are there, by at least one pair of columns. -/
structure SoundJoins (m : Model) : Prop where
  complete : ∀ j ∈ m.joins, ∀ s, (m.findTable? (j.entity s)).isSome = true
  named : ∀ j ∈ m.joins, ∀ s, isBlank (j.entity s) = false
  paired : ∀ j ∈ m.joins, j.condition.pairs ≠ []

instance (m : Model) : Decidable m.SoundJoins :=
  decidable_of_iff (_ ∧ _ ∧ _) ⟨fun h => SoundJoins.mk h.1 h.2.1 h.2.2, fun h => ⟨h.1, h.2, h.3⟩⟩

end Model

/-- Models in which no key leads to two entries of one kind, as far as a plan compares them. -/
structure KeysDistinct (original imported : Model) : Prop where
  tables : (original.tables.map Table.matchKey).Nodup
  tables' : (imported.tables.map Table.matchKey).Nodup
  columns : ∀ t u, Paired Table.matchKey original.tables imported.tables t u →
    (t.columns.map Column.matchKey).Nodup ∧ (u.columns.map Column.matchKey).Nodup
  joins : (original.joins.map Join.signature).Nodup
  joins' : (imported.joins.map Join.signature).Nodup

section Models

variable {original imported : Model}

theorem tableDifference_all : tableDifference .all original imported =
    difference Table.matchKey original.tables imported.tables := by
  rw [tableDifference, Model.tablesIn_all, Model.tablesIn_all]

theorem joinDifference_all : joinDifference .all original imported =
    difference Join.signature original.joins imported.joins := by
  rw [joinDifference, Model.joinsIn_all, Model.joinsIn_all]

theorem keysDistinct_of_unambiguous (h : ambiguousKeys .all original imported = []) :
    KeysDistinct original imported := by
  obtain ⟨htables, hcolumns, hjoins⟩ := ambiguousKeys_eq_nil.1 h
  rw [tableDifference_all] at htables hcolumns
  rw [joinDifference_all] at hjoins
  obtain ⟨ht, hu⟩ := nodup_keys_of_unambiguous htables
  obtain ⟨hj, hk⟩ := nodup_keys_of_unambiguous hjoins
  refine ⟨ht, hu, fun t u hpaired => ?_, hj, hk⟩
  have hpair := hcolumns (t, u) ((mem_both_iff ht hu).2 hpaired)
  rw [columnDifference, Table.columnsIn_all, Table.columnsIn_all] at hpair
  exact nodup_keys_of_unambiguous hpair

/-- The changes of the tables settle the discrepancies of the tables, in the same order. -/
theorem settledBy_tableDiscrepancies :
    List.Forall₂ (Discrepancy.SettledBy original imported) (original.tableDiscrepancies imported)
      (slotChanges {} original imported) := by
  simp only [Model.tableDiscrepancies, slotChanges, tableDifference_all]
  apply List.rel_append
  · apply List.rel_append
    · rw [List.forall₂_map_left_iff, List.forall₂_map_right_iff, List.forall₂_same]
      intro t _
      rfl
    · rw [List.forall₂_map_left_iff, List.forall₂_map_right_iff, List.forall₂_same]
      intro u _
      rfl
  · apply List.rel_flatMap (R := Eq) (List.forall₂_same.2 fun _ _ => rfl)
    rintro ⟨t, u⟩ _ rfl
    change List.Forall₂ _ ((t.discrepancies u).map (Discrepancy.inTable t u)) (tableChanges {} t u)
    rw [← map_change_discrepancies, List.forall₂_map_left_iff, List.forall₂_map_right_iff,
      List.forall₂_same]
    intro e _
    rfl

/-- The changes of the joins can be made, and settle the discrepancies of the joins. -/
theorem exists_joinChanges (horiginal : original.SoundJoins) (himported : imported.SoundJoins) :
    ∃ cs, joinChanges {} original imported = .ok cs ∧
      List.Forall₂ (Discrepancy.SettledBy original imported)
        (original.joinDiscrepancies imported) cs := by
  let joins := difference Join.signature original.joins imported.joins
  have hdrop : ∀ k ∈ joins.onlyImported, ∃ c, Change.dropJoinOf k imported original = .ok c := by
    intro k hk
    have hmem : k ∈ imported.joins :=
      (perm_imports _ _ _).subset (List.mem_append_right _ hk)
    obtain ⟨s, hs⟩ := exists_referencingSide (himported.complete k hmem)
    obtain ⟨spelled, hspelled⟩ :=
      exists_respell (himported.named k hmem) (himported.paired k hmem) original
    exact ⟨_, dropJoinOf_eq_ok.2 ⟨spelled, s, hspelled, hs, rfl⟩⟩
  have hadd : ∀ j ∈ joins.onlyOriginal, ∃ c, Change.addJoinOf j original = .ok c := by
    intro j hj
    have hmem : j ∈ original.joins :=
      (perm_originals _ _ _).subset (List.mem_append_right _ hj)
    obtain ⟨s, hs⟩ := exists_referencingSide (horiginal.complete j hmem)
    exact ⟨_, addJoinOf_eq_ok.2 ⟨s, hs, rfl⟩⟩
  obtain ⟨drops, hdrops⟩ := exists_forall₂ hdrop
  obtain ⟨adds, hadds⟩ := exists_forall₂ hadd
  refine ⟨drops ++ adds, joinChanges_eq_ok.2 ⟨drops, adds, ?_, ?_, rfl⟩, ?_⟩
  · rw [joinDifference_all]
    exact hdrops
  · rw [joinsToAdd_of_not_skipped rfl, joinDifference_all]
    exact hadds
  · apply List.rel_append
    · rw [List.forall₂_map_left_iff]
      apply hdrops.imp
      intro k c hc
      exact dropJoinOf_eq_ok.1 hc
    · rw [List.forall₂_map_left_iff]
      apply hadds.imp
      intro j c hc
      exact addJoinOf_eq_ok.1 hc

variable (hkeys : KeysDistinct original imported)

include hkeys

theorem mem_modelDiscrepancies {d : Discrepancy} :
    d ∈ original.tableDiscrepancies imported ++ original.joinDiscrepancies imported ↔
      d.Between original imported := by
  simp only [Model.tableDiscrepancies, Model.joinDiscrepancies, List.mem_append, List.mem_map,
    List.mem_flatMap, Prod.exists, mem_onlyOriginal_iff hkeys.tables,
    mem_onlyImported_iff hkeys.tables', mem_both_iff hkeys.tables hkeys.tables',
    mem_onlyOriginal_iff hkeys.joins, mem_onlyImported_iff hkeys.joins']
  cases d with
  | missingTable t => simp [Discrepancy.Between, Unpaired]
  | extraTable u => simp [Discrepancy.Between, Unpaired]
  | inTable t u e =>
    have hinside : Paired Table.matchKey original.tables imported.tables t u →
        (e ∈ t.discrepancies u ↔ e.Between t u) := by
      intro hpaired
      obtain ⟨ht, hu⟩ := hkeys.columns t u hpaired
      exact mem_discrepancies ht hu
    apply Iff.trans _ (and_congr_right hinside)
    simp [Paired]
  | missingJoin j => simp [Discrepancy.Between, Unpaired]
  | extraJoin k => simp [Discrepancy.Between, Unpaired]

theorem nodup_modelDiscrepancies :
    (original.tableDiscrepancies imported ++ original.joinDiscrepancies imported).Nodup := by
  let tables := difference Table.matchKey original.tables imported.tables
  let joins := difference Join.signature original.joins imported.joins
  have hmissing : (tables.onlyOriginal.map Discrepancy.missingTable).Nodup :=
    (nodup_onlyOriginal hkeys.tables).map fun _ _ h => Discrepancy.missingTable.inj h
  have hextra : (tables.onlyImported.map Discrepancy.extraTable).Nodup :=
    (nodup_onlyImported hkeys.tables').map fun _ _ h => Discrepancy.extraTable.inj h
  have hmissingJoin : (joins.onlyOriginal.map Discrepancy.missingJoin).Nodup :=
    (nodup_onlyOriginal hkeys.joins).map fun _ _ h => Discrepancy.missingJoin.inj h
  have hextraJoin : (joins.onlyImported.map Discrepancy.extraJoin).Nodup :=
    (nodup_onlyImported hkeys.joins').map fun _ _ h => Discrepancy.extraJoin.inj h
  have hboth : (tables.both.flatMap fun (t, u) =>
      (t.discrepancies u).map (Discrepancy.inTable t u)).Nodup := by
    apply nodup_flatMap_of_unique (nodup_both hkeys.tables)
    · rintro ⟨t, u⟩ hpair
      obtain ⟨ht, hu⟩ := hkeys.columns t u (mem_both hpair)
      exact (nodup_discrepancies ht hu).map fun _ _ h => (Discrepancy.inTable.inj h).2.2
    · rintro ⟨t, u⟩ ⟨t', u'⟩ d hd hd'
      obtain ⟨e, -, rfl⟩ := List.mem_map.1 hd
      obtain ⟨e', -, heq⟩ := List.mem_map.1 hd'
      cases heq
      rfl
  refine ((hmissing.append hextra ?_).append hboth ?_).append (hextraJoin.append hmissingJoin ?_) ?_
  · simp [List.Disjoint]
  · intro d hd hin
    obtain ⟨⟨t, u⟩, -, hin⟩ := List.mem_flatMap.1 hin
    obtain ⟨e, -, rfl⟩ := List.mem_map.1 hin
    simp at hd
  · simp [List.Disjoint]
  · intro d hd hjoin
    rcases List.mem_append.1 hjoin with hjoin | hjoin
    · obtain ⟨k, -, rfl⟩ := List.mem_map.1 hjoin
      simp at hd
    · obtain ⟨j, -, rfl⟩ := List.mem_map.1 hjoin
      simp at hd

end Models

/-! ### Plans -/

/-- What stands in a relation entry for entry does so in any other order as well. -/
theorem exists_perm_forall₂ {α β : Type} {R : α → β → Prop} {xs : List α} {ys zs : List β}
    (h : List.Forall₂ R xs ys) (hperm : zs.Perm ys) :
    ∃ ws, ws.Perm xs ∧ List.Forall₂ R ws zs := by
  obtain ⟨ws, hws, hws'⟩ := List.perm_comp_forall₂ hperm h.flip
  exact ⟨ws, hws', hws.flip⟩

/-- **A plan lists exactly the discrepancies of its models.**  Where every join connects named
    tables that are there, by at least one pair of columns, there is a plan; and if no key is
    ambiguous its changes settle the discrepancies one for one. -/
theorem plan_settles {original imported : Model} (horiginal : original.SoundJoins)
    (himported : imported.SoundJoins) :
    ∃ p, plan {} original imported = .ok p ∧ (p.ambiguous = [] →
      (∃ ds : List Discrepancy, ds.Nodup ∧ (∀ d, d ∈ ds ↔ d.Between original imported) ∧
        List.Forall₂ (Discrepancy.SettledBy original imported) ds (p.tokens.map Token.change)) ∧
      (p.tokens = [] ↔ ∀ d : Discrepancy, ¬ d.Between original imported)) := by
  obtain ⟨ofJoins, hofJoins, hjoins⟩ := exists_joinChanges horiginal himported
  obtain ⟨p, hplan⟩ : ∃ p, plan {} original imported = .ok p :=
    ⟨_, plan_eq_ok.2 ⟨Model.validateJoins_eq_ok.2 horiginal.complete,
      Model.validateJoins_eq_ok.2 himported.complete, ofJoins, hofJoins, rfl⟩⟩
  refine ⟨p, hplan, fun hunambiguous => ?_⟩
  rw [ambiguous_of_plan hplan] at hunambiguous
  have hkeys := keysDistinct_of_unambiguous hunambiguous
  obtain ⟨ofJoins', hofJoins', hperm⟩ := Plan.perm_changes hplan
  obtain rfl : ofJoins = ofJoins' := Except.ok.inj (hofJoins.symm.trans hofJoins')
  obtain ⟨ds, hds, hsettled⟩ :=
    exists_perm_forall₂ (List.rel_append settledBy_tableDiscrepancies hjoins) hperm
  have hmem : ∀ d, d ∈ ds ↔ d.Between original imported := by
    intro d
    rw [hds.mem_iff]
    exact mem_modelDiscrepancies hkeys
  have hempty : p.tokens = [] ↔ ds = [] := by
    rw [← List.length_eq_zero_iff, ← List.length_eq_zero_iff, hsettled.length_eq, Plan.changes,
      List.length_map]
  refine ⟨⟨ds, hds.nodup_iff.2 (nodup_modelDiscrepancies hkeys), hmem, hsettled⟩, ?_⟩
  rw [hempty, List.eq_nil_iff_forall_not_mem]
  exact forall_congr' fun d => not_congr (hmem d)

theorem plan_settles_sample :
    samplePlan.tokens.length = 12 ∧
      (∃ ds : List Discrepancy, ds.Nodup ∧ (∀ d, d ∈ ds ↔ d.Between sampleModel sampleImport) ∧
        List.Forall₂ (Discrepancy.SettledBy sampleModel sampleImport) ds
          (samplePlan.tokens.map Token.change)) ∧
      (samplePlan.tokens = [] ↔ ∀ d : Discrepancy, ¬ d.Between sampleModel sampleImport) := by
  have horiginal : sampleModel.SoundJoins := by decide +kernel
  have himported : sampleImport.SoundJoins := by decide +kernel
  obtain ⟨p, hplan, hcontents⟩ := plan_settles horiginal himported
  obtain rfl : p = samplePlan := Except.ok.inj (hplan.symm.trans plan_sample)
  exact ⟨by decide +kernel, hcontents (by decide +kernel)⟩

end SchemaDrift
