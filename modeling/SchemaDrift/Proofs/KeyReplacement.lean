/-
  SchemaDrift/Proofs/KeyReplacement.lean
  ======================================
  **Which columns of a key are gone when the key is replaced.**

  A key changes with the ranks of the columns around it: a column that joins the key
  excludes NULL before, and a column that leaves it allows NULL after.  A column may also
  leave the key because it leaves the table.  The columns that a plan drops from a table
  are those that only the import has (`dropColumn_mem_changes_iff`), and as dropping a
  column ranks lowest of all that is done inside a table, all of them are gone before the
  key of the table is replaced (`mem_left_of_inOrder`).  PostgreSQL drops the constraint of
  the old key by name then, which went with the first of its columns.

  So the old key is still there exactly if the original table has all of its columns.  Main
  statement: `dropped_before_key_iff`.
-/
import SchemaDrift.Proofs.JoinColumns
import SchemaDrift.Proofs.PlanContents
import SchemaDrift.Proofs.Reversal

namespace SchemaDrift

/-! ### What is asked -/

/-- Whether a token drops a column of a table. -/
def Token.dropsColumn (t : Token) (table name : String) : Bool :=
  sameName t.change.table table && t.change.takes (foldName name)

theorem Token.dropsColumn_iff {t : Token} {table name : String} :
    t.dropsColumn table name = true ↔ ∃ table' column, t.change = .dropColumn table' column ∧
      foldName table' = foldName table ∧ column.matchKey = foldName name := by
  rw [dropsColumn, Bool.and_eq_true, sameName_iff]
  constructor
  · rintro ⟨htable, htakes⟩
    cases hchange : t.change with
    | dropColumn table' column =>
      rw [hchange] at htable htakes
      exact ⟨table', column, rfl, htable, beq_iff_eq.1 htakes⟩
    | _ =>
      rw [hchange] at htakes
      cases htakes
  · rintro ⟨table', column, hchange, htable, hkey⟩
    rw [hchange]
    exact ⟨htable, beq_iff_eq.2 hkey⟩

/-- Whether a table has a column of a name that takes part in comparisons. -/
def Table.Compares (t : Table) (f : Inclusion) (name : String) : Prop :=
  foldName name ∈ (t.columnsIn f).map Column.matchKey

/-- Where every column takes part, those take part that are there. -/
theorem Table.compares_iff {f : Inclusion} (hf : ∀ table column, f.column table column = true)
    {t : Table} {name : String} : t.Compares f name ↔ (t.findColumn? name).isSome = true := by
  have hcolumns : t.columnsIn f = t.columns :=
    List.filter_eq_self.2 fun c _ => hf t.name c.name
  rw [Compares, hcolumns, findColumn?_eq, isSome_entryAt]

/-! ### The order -/

/-- In a list in order all tokens of lower rank stand before a token. -/
theorem mem_left_of_inOrder {left right : List Token} {t u : Token}
    (h : InOrder (left ++ t :: right)) (hu : u ∈ left ++ t :: right)
    (hlower : u.priority < t.priority) : u ∈ left := by
  obtain ⟨-, hright, -⟩ := List.pairwise_append.1 h
  have hafter := (List.pairwise_cons.1 hright).1
  rcases List.mem_append.1 hu with hleft | hrest
  · exact hleft
  · rcases List.mem_cons.1 hrest with rfl | hright'
    · exact absurd hlower (Nat.lt_irrefl _)
    · exact absurd hlower (Nat.not_lt.2 (hafter u hright'))

/-! ### The changes of a plan inside a table -/

section Inside

variable {options : PlanOptions}

theorem dropColumn_mem_tableChanges {t u : Table} {table : String} {column : Column} :
    .dropColumn table column ∈ tableChanges options t u ↔
      table = t.name ∧ column ∈ (columnDifference options.inclusion t u).onlyImported := by
  have hcolumns : ∀ pair ∈ (columnDifference options.inclusion t u).both,
      .dropColumn table column ∉ columnChanges t.name pair.1 pair.2 := by
    intro pair _ hmem
    rcases kind_of_mem_columnChanges hmem with hkind | hkind | hkind <;> cases hkind
  have hkey : .dropColumn table column ∉ keyChanges options t u := by
    intro hmem
    obtain ⟨-, -, heq⟩ := mem_keyChanges.1 hmem
    cases heq
  simp only [tableChanges, List.mem_append, List.mem_map, List.mem_flatMap, reduceCtorEq, hkey,
    Change.dropColumn.injEq, and_false, exists_false, false_or, or_false]
  constructor
  · rintro (⟨_, hmem, rfl, rfl⟩ | ⟨pair, hpair, hmem⟩)
    · exact ⟨rfl, hmem⟩
    · exact absurd hmem (hcolumns pair hpair)
  · rintro ⟨rfl, hmem⟩
    exact .inl ⟨column, hmem, rfl, rfl⟩

theorem setPrimaryKey_mem_tableChanges {t u : Table} {table : String} {old new : List String}
    (h : .setPrimaryKey table old new ∈ tableChanges options t u) :
    table = t.name ∧ old = u.primaryKey ∧ new = t.primaryKey := by
  simp only [tableChanges, List.mem_append, List.mem_map, List.mem_flatMap, reduceCtorEq,
    and_false, exists_false, false_or] at h
  rcases h with ⟨pair, -, hmem⟩ | hkey
  · rcases kind_of_mem_columnChanges hmem with hkind | hkind | hkind <;> cases hkind
  · obtain ⟨-, -, heq⟩ := mem_keyChanges.1 hkey
    cases heq
    exact ⟨rfl, rfl, rfl⟩

variable {original imported : Model} {p : Plan} (hplan : plan options original imported = .ok p)

include hplan

/-- What a plan does inside tables it finds where both models have the table. -/
theorem mem_changes_iff_of_isInTable {c : Change} (hc : c.kind.isInTable = true) :
    c ∈ p.changes ↔ ∃ pair ∈ (tableDifference options.inclusion original imported).both,
      c ∈ tableChanges options pair.1 pair.2 := by
  obtain ⟨ofJoins, hofJoins, hperm⟩ := Plan.perm_changes hplan
  have hjoins : c ∉ ofJoins := by
    intro hmem
    have hkind := (joinMoves_of_joinChanges hofJoins).kinds c hmem
    cases c with
    | addJoin j referencing => cases hc
    | dropJoin j referencing => cases hc
    | _ => cases hkind
  rw [hperm.mem_iff, List.mem_append, or_iff_left hjoins, mem_slotChanges]
  constructor
  · rintro (⟨t, -, rfl⟩ | ⟨t, -, rfl⟩ | hpair)
    · cases hc
    · cases hc
    · exact hpair
  · exact fun hpair => .inr (.inr hpair)

/-- **The columns that a plan drops** from a table are those that only the import has. -/
theorem dropColumn_mem_changes_iff (hunambiguous : p.ambiguous = []) {t u : Table}
    (hpair : (t, u) ∈ (tableDifference options.inclusion original imported).both) {name : String} :
    (∃ table column, .dropColumn table column ∈ p.changes ∧ foldName table = foldName t.name ∧
        column.matchKey = foldName name) ↔
      u.Compares options.inclusion name ∧ ¬ t.Compares options.inclusion name := by
  rw [ambiguous_of_plan hplan] at hunambiguous
  obtain ⟨htables, hcolumns, -⟩ := ambiguousKeys_eq_nil.1 hunambiguous
  obtain ⟨hdistinct, hdistinct'⟩ := nodup_keys_of_unambiguous htables
  obtain ⟨-, hcolumns'⟩ := nodup_keys_of_unambiguous (hcolumns (t, u) hpair)
  obtain ⟨ht, hu, hkey⟩ := mem_both hpair
  simp only [mem_changes_iff_of_isInTable hplan (c := .dropColumn _ _) rfl,
    dropColumn_mem_tableChanges]
  constructor
  · rintro ⟨_, column, ⟨⟨t', u'⟩, hpair', rfl, hdropped⟩, htable, hname⟩
    -- there is but one pair of tables of the name
    obtain ⟨ht', hu', hkey'⟩ := mem_both hpair'
    obtain rfl := List.inj_on_of_nodup_map hdistinct ht' ht htable
    obtain rfl := List.inj_on_of_nodup_map hdistinct' hu' hu (hkey'.symm.trans hkey)
    obtain ⟨hmem, hnone⟩ := (mem_onlyImported_iff hcolumns').1 hdropped
    rw [Table.Compares, Table.Compares, ← hname]
    exact ⟨List.mem_map_of_mem hmem, hnone⟩
  · rintro ⟨hthere, hnone⟩
    obtain ⟨column, hmem, hname⟩ := List.mem_map.1 hthere
    rw [Table.Compares, ← hname] at hnone
    exact ⟨t.name, column, ⟨(t, u), hpair, rfl, (mem_onlyImported_iff hcolumns').2 ⟨hmem, hnone⟩⟩,
      rfl, hname⟩

end Inside

/-! ### Replacing a key -/

/-- PostgreSQL drops a key by the name of its constraint. -/
theorem dropConstraint_mem_postgresChange {table : String} {old new : List String} (h : old ≠ []) :
    .dropConstraint table (Dialect.keyConstraintName table) ∈
      Dialect.postgresChange (.setPrimaryKey table old new) := by
  have hempty : old.isEmpty = false := by simpa using h
  rw [Dialect.postgresChange, hempty]
  exact List.mem_append_left _ List.mem_cons_self

section Replacing

variable {options : PlanOptions} {original imported : Model} {p : Plan}
  (hplan : plan options original imported = .ok p) {left right : List Token} {d : Direction}
  {table : String} {old new : List String}
  (htokens : p.tokens = left ++ ⟨d, .setPrimaryKey table old new⟩ :: right)

include hplan htokens

/-- Every column that a plan drops is gone when a key is replaced. -/
theorem exists_dropsColumn_iff {name : String} :
    (∃ token ∈ left, token.dropsColumn table name = true) ↔
      ∃ table' column, .dropColumn table' column ∈ p.changes ∧
        foldName table' = foldName table ∧ column.matchKey = foldName name := by
  have hinOrder := inOrder_of_plan hplan
  rw [Plan.changes, htokens]
  rw [htokens] at hinOrder
  constructor
  · rintro ⟨token, hmem, hdrops⟩
    obtain ⟨table', column, hchange, hnames⟩ := Token.dropsColumn_iff.1 hdrops
    refine ⟨table', column, ?_, hnames⟩
    rw [← hchange]
    exact List.mem_map_of_mem (List.mem_append_left _ hmem)
  · rintro ⟨table', column, hmem, hnames⟩
    obtain ⟨token, htoken, hchange⟩ := List.mem_map.1 hmem
    have hranks : ChangeKind.dropColumn.priority < ChangeKind.setPrimaryKey.priority := by decide
    have hlower : token.priority < (Token.mk d (.setPrimaryKey table old new)).priority := by
      rw [Token.priority, Token.kind, hchange]
      exact hranks
    exact ⟨token, mem_left_of_inOrder hinOrder htoken hlower,
      Token.dropsColumn_iff.2 ⟨table', column, hchange, hnames⟩⟩

/-- **A key is replaced after all columns are dropped that leave its table.**  A plan without
    ambiguous keys replaces a key where both models have the table.  Before it does so it drops, of
    the columns that the imported table has, exactly those that the original one lacks.  So where
    every column takes part, the old key loses no column before it is dropped itself if and only
    if the original table has all of its columns. -/
theorem dropped_before_key_iff (hunambiguous : p.ambiguous = [])
    (himported : ∀ u ∈ imported.tables, u.Consistent) :
    (old ≠ [] → .dropConstraint table (Dialect.keyConstraintName table) ∈
      Dialect.postgresChange (.setPrimaryKey table old new)) ∧
    ∃ t u, Paired Table.matchKey (original.tablesIn options.inclusion)
        (imported.tablesIn options.inclusion) t u ∧
      table = t.name ∧ old = u.primaryKey ∧ new = t.primaryKey ∧
      (∀ name, (∃ token ∈ left, token.dropsColumn table name = true) ↔
        u.Compares options.inclusion name ∧ ¬ t.Compares options.inclusion name) ∧
      ((∀ table column, options.inclusion.column table column = true) →
        ((∀ token ∈ left, ∀ name ∈ old, token.dropsColumn table name = false) ↔
          ∀ name ∈ old, (t.findColumn? name).isSome = true)) := by
  have hmem : .setPrimaryKey table old new ∈ p.changes := by
    rw [Plan.changes, htokens, List.map_append, List.map_cons]
    exact List.mem_append_right _ List.mem_cons_self
  obtain ⟨⟨t, u⟩, hpair, hchange⟩ := (mem_changes_iff_of_isInTable hplan rfl).1 hmem
  obtain ⟨rfl, rfl, rfl⟩ := setPrimaryKey_mem_tableChanges hchange
  have hdropped : ∀ name, (∃ token ∈ left, token.dropsColumn t.name name = true) ↔
      u.Compares options.inclusion name ∧ ¬ t.Compares options.inclusion name := by
    intro name
    rw [exists_dropsColumn_iff hplan htokens,
      dropColumn_mem_changes_iff hplan hunambiguous hpair]
  refine ⟨dropConstraint_mem_postgresChange, t, u, mem_both hpair, rfl, rfl, rfl, hdropped,
    fun hall => ?_⟩
  have hu : u.Consistent := himported u (List.mem_of_mem_filter (mem_both hpair).2.1)
  -- the imported table has the columns of its key, so only the original one matters
  have hlost : ∀ name ∈ u.primaryKey, (∃ token ∈ left, token.dropsColumn t.name name = true) ↔
      ¬ (t.findColumn? name).isSome = true := by
    intro name hname
    rw [hdropped, Table.compares_iff hall, Table.compares_iff hall,
      and_iff_right (hu.key_found name hname)]
  constructor
  · intro hspared name hname
    by_contra hnone
    obtain ⟨token, htoken, hdrops⟩ := (hlost name hname).2 hnone
    exact Bool.eq_false_iff.1 (hspared token htoken name hname) hdrops
  · intro hthere token htoken name hname
    rw [Bool.eq_false_iff]
    intro hdrops
    exact (hlost name hname).1 ⟨token, htoken, hdrops⟩ (hthere name hname)

end Replacing

/-- A model with one table of integer columns, some of which are its key. -/
def ledger (columns key : List String) : Model where
  tables :=
    [Table.setPrimaryKey
      { name := "LEDGER", columns := columns.map fun name => ⟨name, .integer, false, false⟩ } key]

/-- The plan for a ledger that loses a column: the column is dropped, then the key is replaced. -/
def ledgerPlan (column : Column) (old new : List String) : Plan where
  tokens := [⟨.toDatabase, .dropColumn "LEDGER" column⟩] ++
    ⟨.toDatabase, .setPrimaryKey "LEDGER" old new⟩ :: []

/-- A column beside the key may be dropped before it. -/
theorem dropped_before_key_iff_ledger :
    plan {} (ledger ["YEAR", "NO"] ["YEAR"]) (ledger ["YEAR", "NO", "NOTE"] ["Year", "NO"]) =
        .ok (ledgerPlan ⟨"NOTE", .integer, false, false⟩ ["Year", "NO"] ["YEAR"]) ∧
      ∀ name ∈ ["Year", "NO"], Token.dropsColumn
        ⟨.toDatabase, .dropColumn "LEDGER" ⟨"NOTE", .integer, false, false⟩⟩ "LEDGER" name =
          false := by
  have hplan : plan {} (ledger ["YEAR", "NO"] ["YEAR"])
      (ledger ["YEAR", "NO", "NOTE"] ["Year", "NO"]) =
        .ok (ledgerPlan ⟨"NOTE", .integer, false, false⟩ ["Year", "NO"] ["YEAR"]) := by
    decide +kernel
  have hconsistent : ∀ u ∈ (ledger ["YEAR", "NO", "NOTE"] ["Year", "NO"]).tables, u.Consistent := by
    decide +kernel
  obtain ⟨-, t, u, ⟨ht, -, -⟩, -, -, -, -, hspared⟩ :=
    dropped_before_key_iff hplan rfl rfl hconsistent
  obtain rfl := List.mem_singleton.1 (List.mem_of_mem_filter ht)
  exact ⟨hplan, (hspared fun _ _ => rfl).2 (by decide +kernel) _ List.mem_cons_self⟩

/-- A column that leaves the key because it leaves the table is dropped before the key, with models
    that are coherent and have no joins. -/
theorem plan_dropsKeyColumn :
    (ledger ["YEAR"] ["YEAR"]).Coherent ∧ (ledger ["YEAR", "NO"] ["YEAR", "NO"]).Coherent ∧
      plan {} (ledger ["YEAR"] ["YEAR"]) (ledger ["YEAR", "NO"] ["YEAR", "NO"]) =
        .ok (ledgerPlan ⟨"NO", .integer, false, true⟩ ["YEAR", "NO"] ["YEAR"]) ∧
      (ledgerPlan ⟨"NO", .integer, false, true⟩ ["YEAR", "NO"] ["YEAR"]).ambiguous = [] ∧
      Token.dropsColumn ⟨.toDatabase, .dropColumn "LEDGER" ⟨"NO", .integer, false, true⟩⟩
        "LEDGER" "NO" = true ∧
      (execute .postgres (ledgerPlan ⟨"NO", .integer, false, true⟩ ["YEAR", "NO"] ["YEAR"]).tokens
          (ledger ["YEAR"] ["YEAR"])).report.sql =
        ["ALTER TABLE \"LEDGER\" DROP COLUMN \"NO\"",
          "ALTER TABLE \"LEDGER\" DROP CONSTRAINT \"LEDGER_pkey\"",
          "ALTER TABLE \"LEDGER\" ADD PRIMARY KEY (\"YEAR\")"] := by
  refine ⟨by decide +kernel, by decide +kernel, by decide +kernel, rfl, ?_, ?_⟩
  all_goals decide +kernel

end SchemaDrift
