/-
  SchemaDrift/Proofs/Provisioning.lean
  ====================================
  **An empty SQLite database is brought in line with a model in one round.**

  SQLite gets texts.  What it does with them is not part of the library, so it is a parameter
  here, an engine, and what is assumed of it is said by `Engine.KeepsTables`: a text that
  creates a table, by the grammar of `Language.readStatement`, is carried out if the
  definition is an ordinary one and the name is free, and the catalog repeats the definition
  as it was written: names, declared types, NOT NULL marks and positions in the key.  The
  database in memory is such an engine (`Database.engine_keepsTables`).

  The statements that the dialect renders are texts of this kind (`readStatement_sql`).  Of
  the types of a model four are declared by their own names, so a table of such columns comes
  back as it was (`Table.matches_reported_stored`): a column is marked NOT NULL unless it
  allows NULL, which no key column does, and the key comes back in its order
  (`StoredTable.readTable_columnRows`).

  The plan for an empty database creates the tables of the model in the order of their keys
  (`exists_plan_empty`).  The creations do not depend on each other and are carried out one
  after the other (`Engine.exists_run_creations`), and the tables are read back in the order
  of their names (`Engine.exists_introspect`), which is another one.  It does not matter:
  tables are matched by name (`exists_plan_stored`).  Main statement: `provision_settles`.

  Joins are not planned here, as SQLite adds no constraints to a table that exists.
-/
import SchemaDrift.Database.Deployment
import SchemaDrift.Proofs.Batch
import SchemaDrift.Proofs.Convergence
import SchemaDrift.Proofs.Filtering
import SchemaDrift.Proofs.Introspection
import SchemaDrift.Proofs.Reading

namespace SchemaDrift

/-! ### What is assumed of SQLite -/

namespace StoredTable

/-- The statement that creates a table without foreign keys. -/
def creation (t : StoredTable) : Statement := .createTable t.name t.columns t.key

/-- An ordinary definition: the table has a name that is not SQLite's own and columns with names
    and storage classes, and every column of its key is marked NOT NULL. -/
structure WellDefined (t : StoredTable) : Prop where
  coherent : t.Coherent
  named : isBlank t.name = false
  unreserved : hasSystemPrefix t.name = false
  nonempty : t.columns ≠ []
  columns_named : ∀ c ∈ t.columns, c.name ≠ ""
  types : ∀ c ∈ t.columns, c.type ∈ ["INTEGER", "TEXT", "REAL", "BLOB"]
  key_notNull : ∀ c ∈ t.columns, namedIn t.key c.name = true → c.notNull = true
  references_nil : t.references = []

end StoredTable

/-- What SQLite is taken to do, where `Holds db ts` says that `ts` are the tables of a database in
    the order of their creation. -/
structure Engine.KeepsTables {σ : Type} (e : Engine σ) (Holds : σ → List StoredTable → Prop) :
    Prop where
  /-- A text that creates an ordinary table under a free name is carried out, and the table is
      kept as it was defined. -/
  creates : ∀ {db ts text t}, Holds db ts → Language.readStatement text = some t.creation →
    t.WellDefined → foldName t.name ∉ ts.map (fun t => foldName t.name) →
      ∃ db', e.execute text db = some db' ∧ Holds db' (ts ++ [t])
  /-- `sqlite_master` lists the tables in the order of their names. -/
  lists : ∀ {db ts text}, Holds db ts → Language.readQuery text = some .tables →
    e.query text db = some ((Database.mk ts).answer .tables)
  /-- `PRAGMA table_info` has a row for each column, with its name, the text of its type, its mark
      and its position in the key. -/
  describes : ∀ {db ts text t}, Holds db ts → t ∈ ts →
    Language.readQuery text = some (.columns t.name) → e.query text db = some t.columnRows
  /-- `PRAGMA foreign_key_list` has a row for each pair of columns of a foreign key. -/
  refers : ∀ {db ts text t}, Holds db ts → t ∈ ts →
    Language.readQuery text = some (.foreignKeys t.name) → e.query text db = some t.foreignKeyRows

/-! ### The database in memory -/

namespace StoredTable

theorem distinctNames_iff {names : List String} :
    distinctNames names = true ↔ (names.map foldName).Nodup := by
  induction names with
  | nil => simp [distinctNames]
  | cons name names ih =>
    rw [distinctNames, Bool.and_eq_true, ih, List.map_cons, List.nodup_cons, Bool.not_eq_true',
      ← Bool.not_eq_true, namedIn_iff]

theorem isReservedName_eq_false {name : String} (h : hasSystemPrefix name = false) :
    isReservedName name = false := by
  rw [← Bool.not_eq_true] at h ⊢
  refine fun hreserved => h ?_
  have htake : (name.toList.take 7).map Char.toUpper = "SQLITE_".toList := beq_iff_eq.1 hreserved
  have hsix := congrArg (List.take 6) htake
  rw [← List.map_take, List.take_take] at hsix
  exact beq_iff_eq.2 hsix

theorem isInternalName_eq_false {name : String} (h : hasSystemPrefix name = false) :
    isInternalName name = false := by
  rw [isInternalName, h, Bool.false_and]

/-- The text that creates an ordinary table is understood. -/
theorem WellDefined.readStatement_creation {t : StoredTable} (h : t.WellDefined) :
    Language.readStatement t.creation.sql = some t.creation := by
  have hcapital : ∀ type ∈ ["INTEGER", "TEXT", "REAL", "BLOB"],
      type.toList.all Char.isUpper = true := by decide
  refine Language.readStatement_sql ⟨fun c hc => hcapital c.type (h.types c hc), ?_⟩
  exact List.append_ne_nil_of_left_ne_nil (mt List.map_eq_nil_iff.1 h.nonempty) _

theorem WellDefined.accepts {t : StoredTable} (h : t.WellDefined) : t.accepts = true := by
  have hcolumns : t.columns.isEmpty = false := List.isEmpty_eq_false_iff.2 h.nonempty
  have hnames : distinctNames (t.columns.map (·.name)) = true := by
    rw [distinctNames_iff, List.map_map]
    exact h.coherent.columns_distinct
  have hkey : t.key.all t.hasColumn = true := List.all_eq_true.2 h.coherent.key_found
  rw [StoredTable.accepts, isReservedName_eq_false h.unreserved, hcolumns, hnames, hkey,
    h.references_nil]
  rfl

end StoredTable

namespace Database

theorem perform_creation {db : Database} {t : StoredTable} (ht : t.WellDefined)
    (hfresh : foldName t.name ∉ db.tables.map fun t => foldName t.name) :
    db.perform t.creation = some ⟨db.tables ++ [t]⟩ := by
  have hnone : (db.findTable? t.name).isNone = true := by
    rw [Option.isNone_iff_eq_none]
    exact entryAt_eq_none.2 hfresh
  have hplain : StoredTable.mk t.name t.columns t.key [] = t := by
    rw [← ht.references_nil]
  rw [StoredTable.creation, perform, hplain, create, ht.accepts, hnone]
  rfl

theorem findTable?_of_mem {ts : List StoredTable} (hnames : (ts.map fun t => foldName t.name).Nodup)
    {t : StoredTable} (ht : t ∈ ts) : (Database.mk ts).findTable? t.name = some t :=
  entryAt_of_mem hnames ht

/-- The database in memory does what is assumed of SQLite. -/
theorem engine_keepsTables : engine.KeepsTables fun db ts =>
    db = ⟨ts⟩ ∧ (ts.map fun t => foldName t.name).Nodup where
  creates := by
    rintro _ ts text t ⟨rfl, hnames⟩ htext ht hfresh
    refine ⟨_, ?_, rfl, ?_⟩
    · change (Language.readStatement text).bind (Database.mk ts).perform = _
      rw [htext]
      exact perform_creation ht hfresh
    · rw [List.map_append]
      exact hnames.append (List.nodup_singleton _) (List.disjoint_singleton.2 hfresh)
  lists := by
    rintro _ ts text ⟨rfl, -⟩ htext
    exact congrArg (Option.map _) htext
  describes := by
    rintro _ ts text t ⟨rfl, hnames⟩ ht htext
    refine (congrArg (Option.map _) htext).trans ?_
    rw [Option.map_some, answer, findTable?_of_mem hnames ht]
    rfl
  refers := by
    rintro _ ts text t ⟨rfl, hnames⟩ ht htext
    refine (congrArg (Option.map _) htext).trans ?_
    rw [Option.map_some, answer, findTable?_of_mem hnames ht]
    rfl

end Database

/-! ### Tables that SQLite keeps as they are -/

/-- The types that SQLite has a storage class of its own for, and so reports back as they are. -/
def SqlType.isStorageClass : SqlType → Bool
  | integer | text | real | blob => true
  | _ => false

theorem sqliteType_mem {t : SqlType} (h : t.isStorageClass = true) :
    Dialect.sqliteType t ∈ ["INTEGER", "TEXT", "REAL", "BLOB"] := by
  cases t <;> cases h
  all_goals decide

theorem ofDeclared_sqliteType {t : SqlType} (h : t.isStorageClass = true) :
    SqlType.ofDeclared (Dialect.sqliteType t) = t := by
  cases t <;> cases h
  all_goals decide +kernel

namespace Table

/-- A table that SQLite creates and reports back as it is: it is consistent, its name is not blank
    and not SQLite's own, and it has columns, all of them with names and of storage classes. -/
structure Storable (t : Table) : Prop where
  consistent : t.Consistent
  named : isBlank t.name = false
  unreserved : StoredTable.hasSystemPrefix t.name = false
  nonempty : t.columns ≠ []
  columns_named : ∀ c ∈ t.columns, c.name ≠ ""
  types : ∀ c ∈ t.columns, c.type.isStorageClass = true

theorem storable_iff {t : Table} :
    t.Storable ↔ t.Consistent ∧ isBlank t.name = false ∧
      StoredTable.hasSystemPrefix t.name = false ∧ t.columns ≠ [] ∧
      (∀ c ∈ t.columns, c.name ≠ "") ∧ ∀ c ∈ t.columns, c.type.isStorageClass = true :=
  ⟨fun h => ⟨h.1, h.2, h.3, h.4, h.5, h.6⟩,
    fun ⟨h₁, h₂, h₃, h₄, h₅, h₆⟩ => ⟨h₁, h₂, h₃, h₄, h₅, h₆⟩⟩

instance (t : Table) : Decidable t.Storable := decidable_of_iff _ storable_iff.symm

/-- What SQLite stores of a table that it creates. -/
def stored (t : Table) : StoredTable :=
  { name := t.name
    columns := t.columns.map (Dialect.defineColumn Dialect.sqliteType)
    key := t.primaryKey }

theorem findColumn?_stored (t : Table) (name : String) :
    t.stored.findColumn? name =
      (t.findColumn? name).map (Dialect.defineColumn Dialect.sqliteType) := by
  rw [StoredTable.findColumn?, stored, List.find?_map]
  rfl

theorem Consistent.coherent_stored {t : Table} (h : t.Consistent) : t.stored.Coherent where
  columns_distinct := by
    rw [stored, List.map_map]
    exact h.columns_distinct
  key_distinct := h.key_distinct
  key_found name hname := by
    rw [findColumn?_stored, Option.isSome_map]
    exact h.key_found name hname

theorem Storable.wellDefined {t : Table} (h : t.Storable) : t.stored.WellDefined where
  coherent := h.consistent.coherent_stored
  named := h.named
  unreserved := h.unreserved
  nonempty := mt List.map_eq_nil_iff.1 h.nonempty
  columns_named := List.forall_mem_map.2 h.columns_named
  types := List.forall_mem_map.2 fun c hc => sqliteType_mem (h.types c hc)
  key_notNull := List.forall_mem_map.2 fun c hc hkey => by
    have hflag : c.key = true := (h.consistent.key_flagged c hc).trans hkey
    change (!c.nullable) = true
    rw [h.consistent.key_notNull c hc hflag]
    rfl
  references_nil := rfl

/-! ### Reading a table back -/

theorem spelling_stored {t : Table} (h : t.Consistent) {name : String}
    (hname : name ∈ t.primaryKey) : foldName (t.stored.spelling name) = foldName name := by
  obtain ⟨c, hc⟩ := Option.isSome_iff_exists.1 (h.key_found name hname)
  have hsame : c.matchKey = foldName name := keyOf_entryAt hc
  rw [StoredTable.spelling, findColumn?_stored, hc]
  exact hsame

theorem foldedKey_reported_stored {t : Table} (h : t.Consistent) :
    t.stored.reported.foldedKey = t.foldedKey := by
  change (t.primaryKey.map t.stored.spelling).map foldName = t.primaryKey.map foldName
  rw [List.map_map]
  exact List.map_congr_left fun name hname => spelling_stored h hname

theorem reportedColumn_stored {t : Table} (h : t.Storable) {c : Column} (hc : c ∈ t.columns) :
    t.stored.reportedColumn (Dialect.defineColumn Dialect.sqliteType c) = c := by
  have hkey : namedIn t.stored.key c.name = c.key := (h.consistent.key_flagged c hc).symm
  have hnull : (!(!c.nullable) && !c.key) = c.nullable := by
    have := h.consistent.key_notNull c hc
    cases hk : c.key <;> simp_all
  change Column.mk c.name (.ofDeclared (Dialect.sqliteType c.type))
    (!(!c.nullable) && !namedIn t.stored.key c.name) (namedIn t.stored.key c.name) = c
  rw [hkey, hnull, ofDeclared_sqliteType (h.types c hc)]

/-- A table is reported back with the columns it was created with. -/
theorem columns_reported_stored {t : Table} (h : t.Storable) :
    t.stored.reported.columns = t.columns := by
  change (t.columns.map _).map t.stored.reportedColumn = _
  rw [List.map_map]
  refine (List.map_congr_left fun c hc => ?_).trans (List.map_id _)
  exact reportedColumn_stored h hc

theorem matches_reported_stored {t : Table} (h : t.Storable) : t.Matches t.stored.reported where
  distinct := h.consistent.columns_distinct
  distinct' := by
    rw [columns_reported_stored h]
    exact h.consistent.columns_distinct
  columns key := by rw [columnAt, columnAt, columns_reported_stored h]
  key := (foldedKey_reported_stored h.consistent).symm

end Table

/-! ### Creating tables -/

/-- The token that has a table created. -/
def Table.creation (t : Table) : Token := ⟨.toDatabase, .addTable t⟩

theorem sortTokens_creations (ts : List Table) :
    sortTokens (ts.map Table.creation) = ts.map Table.creation :=
  sortTokens_of_inOrder (List.pairwise_map.2 (List.pairwise_of_forall fun _ _ => Nat.le_refl _))

/-- What the report on a batch says of the creation of a table. -/
def Table.rendering (t : Table) : RenderedToken :=
  ⟨t.creation, [Dialect.defineTable Dialect.sqliteType t]⟩

/-- Every creation is rendered, as one statement. -/
theorem execute_creations (ts : List Table) (m : Model) :
    (execute .sqlite (ts.map Table.creation) m).report.statements = ts.map Table.rendering ∧
      (execute .sqlite (ts.map Table.creation) m).report.isSuccess = true := by
  let os := outcomes .sqlite m (ts.map Table.creation)
  have hstatements : os.filterMap Outcome.rendered? = ts.map Table.rendering := by
    rw [filterMap_rendered?_outcomes, List.filterMap_map]
    exact congrFun List.filterMap_eq_map' ts
  have hfailures : os.filterMap Outcome.failure? = [] := by
    have hentries := entries_reportOf os
    have hlength : os.length = ts.length := (length_outcomes _ _ _).trans (List.length_map _)
    simp only [reportOf, hstatements, List.length_map, hlength] at hentries
    exact List.eq_nil_of_length_eq_zero (by omega)
  rw [execute_eq, sortTokens_creations]
  refine ⟨hstatements, ?_⟩
  change (os.filterMap Outcome.failure?).isEmpty = true
  rw [hfailures]
  rfl

namespace Engine

variable {σ : Type} {e : Engine σ} {Holds : σ → List StoredTable → Prop}

/-- The creations of a batch succeed one after the other. -/
theorem exists_run_creations (he : e.KeepsTables Holds) {ts : List Table}
    (hts : ∀ t ∈ ts, t.Storable) {x : Deployment σ} {held : List StoredTable}
    (hheld : Holds x.state held)
    (hfresh : ((held.map fun t => foldName t.name) ++ ts.map Table.matchKey).Nodup) :
    ∃ db, Holds db (held ++ ts.map Table.stored) ∧
      (ts.map Table.rendering).foldl
          (fun x t => Deployment.runToken (fun s => e.execute s.sql) t.token x t.statements) x =
        { x with state := db, executed := x.executed + ts.length } := by
  induction ts generalizing x held with
  | nil => exact ⟨x.state, by simpa using hheld, rfl⟩
  | cons t ts ih =>
    obtain ⟨ht, hts⟩ := List.forall_mem_cons.1 hts
    have hnew : foldName t.stored.name ∉ held.map fun t => foldName t.name := fun hmem =>
      (List.nodup_append.1 hfresh).2.2 _ hmem _ List.mem_cons_self rfl
    obtain ⟨db, hexecute, hholds⟩ :=
      he.creates hheld ht.wellDefined.readStatement_creation ht.wellDefined hnew
    have hstep : Deployment.runToken (fun s => e.execute s.sql) t.creation x
        [Dialect.defineTable Dialect.sqliteType t] =
          { x with state := db, executed := x.executed + 1 } := by
      have hexecute' : e.execute (Dialect.defineTable Dialect.sqliteType t).sql x.state = some db :=
        hexecute
      rw [Deployment.runToken, hexecute']
      rfl
    have hrest : (((held ++ [t.stored]).map fun t => foldName t.name) ++
        ts.map Table.matchKey).Nodup := by
      rw [List.map_append, List.append_assoc]
      exact hfresh
    obtain ⟨last, hlast, hrun⟩ := @ih hts { x with state := db, executed := x.executed + 1 }
      (held ++ [t.stored]) hholds hrest
    refine ⟨last, ?_, ?_⟩
    · rwa [List.append_assoc] at hlast
    · rw [List.map_cons, List.foldl_cons, Table.rendering, hstep, hrun]
      simp only [List.length_cons, Nat.add_assoc, Nat.add_comm 1]

/-- A database is given the creations of a report, and holds the tables afterwards. -/
theorem exists_deploy_creations (he : e.KeepsTables Holds) {empty : σ} (hempty : Holds empty [])
    {ts : List Table} (hts : ∀ t ∈ ts, t.Storable) (hdistinct : (ts.map Table.matchKey).Nodup)
    {r : BatchReport} (hr : r.statements = ts.map Table.rendering) :
    ∃ db, Holds db (ts.map Table.stored) ∧
      e.deploy false r empty = { state := db, executed := ts.length } := by
  obtain ⟨db, hholds, hrun⟩ :=
    @exists_run_creations _ _ _ he ts hts { state := empty } [] hempty hdistinct
  rw [← hr, Nat.zero_add] at hrun
  exact ⟨db, hholds, hrun⟩

/-- A database shows the tables that it holds. -/
theorem KeepsTables.shows (he : e.KeepsTables Holds) {db : σ} {ts : List StoredTable}
    (hholds : Holds db ts) {t : StoredTable} (ht : t ∈ ts) (hdefined : t.WellDefined) :
    e.Shows db t where
  coherent := hdefined.coherent
  columns := by rw [ask, he.describes hholds ht (Language.readQuery_sql _)]
  foreignKeys := by
    rw [ask, he.refers hholds ht (Language.readQuery_sql _), StoredTable.foreignKeyRows,
      hdefined.references_nil]
    rfl

theorem KeepsTables.exists_introspect (he : e.KeepsTables Holds) {db : σ} {ts : List Table}
    (hholds : Holds db (ts.map Table.stored)) (hts : ∀ t ∈ ts, t.Storable)
    (hdistinct : (ts.map Table.matchKey).Nodup) :
    ∃ n, e.introspect db .all = .ok n ∧ n.joins = [] ∧
      n.tables.Perm ((ts.map Table.stored).map StoredTable.reported) := by
  have hdefined : ∀ t ∈ ts.map Table.stored, t.WellDefined :=
    List.forall_mem_map.2 fun t ht => (hts t ht).wellDefined
  have hlisted : e.ask db .tables = .ok ((Database.mk (ts.map Table.stored)).answer .tables) := by
    rw [ask, he.lists hholds (Language.readQuery_sql _)]
  have hnames : ((ts.map Table.stored).map fun t => foldName t.name).Nodup := by
    rwa [List.map_map]
  obtain ⟨n, hread, hjoinless, hperm⟩ := Engine.exists_introspect hlisted
    (fun t ht => he.shows hholds ht (hdefined t ht)) hnames
    (fun t ht => StoredTable.isInternalName_eq_false (hdefined t ht).unreserved) .all
  have hall : ((ts.map Table.stored).map StoredTable.reported).filter Inclusion.all.includesTable =
      (ts.map Table.stored).map StoredTable.reported := List.filter_eq_self.2 fun _ _ => rfl
  rw [hall] at hperm
  exact ⟨n, hread, hjoinless, hperm⟩

end Engine

/-! ### Plans -/

/-- Of two lists the second of which is empty, everything is on one side. -/
theorem difference_nil {α : Type} (keyOf : α → String) (original : List α) :
    (difference keyOf original []).onlyOriginal.Perm original ∧
      (difference keyOf original []).onlyImported = [] ∧
        (difference keyOf original []).both = [] := by
  obtain ⟨hboth, himported⟩ :=
    List.append_eq_nil_iff.1 (perm_imports keyOf original []).eq_nil
  have hperm := perm_originals keyOf original []
  rw [List.map_eq_nil_iff.1 hboth] at hperm
  exact ⟨hperm, himported, List.map_eq_nil_iff.1 hboth⟩

/-- Without joins in the import, and with none to be added, a plan is about tables only. -/
theorem exists_plan_of_joinless {options : PlanOptions} (hskip : options.skipJoins = true)
    {original imported : Model} (hcomplete : original.JoinsComplete)
    (hjoinless : imported.joins = []) :
    ∃ p, plan options original imported = .ok p ∧
      p.tokens =
        sortTokens ((slotChanges options original imported).map (Token.mk .toDatabase)) := by
  have hdrops : (joinDifference options.inclusion original imported).onlyImported = [] := by
    rw [joinDifference, Model.joinsIn, Model.joinsIn, hjoinless]
    exact (difference_nil _ _).2.1
  have hjoins : joinChanges options original imported = .ok [] := by
    rw [joinChanges_eq_ok]
    refine ⟨[], [], ?_, ?_, rfl⟩
    · rw [hdrops]
      exact .nil
    · rw [joinsToAdd, hskip]
      exact .nil
  refine ⟨_, plan_eq_ok.2 ⟨?_, ?_, [], hjoins, rfl⟩, ?_⟩
  · exact Model.validateJoins_eq_ok.2 hcomplete
  · refine Model.validateJoins_eq_ok.2 fun j hj => ?_
    rw [hjoinless] at hj
    cases hj
  · rw [List.append_nil]

/-- A model whose tables SQLite keeps as they are, each under a name of its own. -/
structure Model.Storable (m : Model) : Prop where
  tables_distinct : (m.tables.map Table.matchKey).Nodup
  tables_storable : ∀ t ∈ m.tables, t.Storable
  joins_complete : m.JoinsComplete

theorem Model.storable_iff {m : Model} :
    m.Storable ↔ (m.tables.map Table.matchKey).Nodup ∧ (∀ t ∈ m.tables, t.Storable) ∧
      m.JoinsComplete :=
  ⟨fun h => ⟨h.1, h.2, h.3⟩, fun ⟨h₁, h₂, h₃⟩ => ⟨h₁, h₂, h₃⟩⟩

instance (m : Model) : Decidable m.Storable := decidable_of_iff _ Model.storable_iff.symm

/-- The tables of a model match those that are read back. -/
theorem tables_match_stored {m n : Model} (hm : m.Storable) {ts : List Table}
    (hts : ts.Perm m.tables) (hn : n.tables.Perm ((ts.map Table.stored).map StoredTable.reported))
    (key : String) : Option.Rel Table.Matches (m.tableAt key) (n.tableAt key) := by
  have hkeys : (n.tables.map Table.matchKey).Perm (m.tables.map Table.matchKey) := by
    refine (hn.map Table.matchKey).trans ?_
    rw [List.map_map, List.map_map]
    exact hts.map Table.matchKey
  cases hfound : m.tableAt key with
  | none =>
    have hnone : n.tableAt key = none := by
      rw [entryAt_eq_none, hkeys.mem_iff]
      exact entryAt_eq_none.1 hfound
    rw [hnone]
    exact .none
  | some t =>
    have ht : t ∈ m.tables := mem_of_entryAt hfound
    have hread : t.stored.reported ∈ n.tables := by
      refine hn.mem_iff.2 (List.mem_map_of_mem (List.mem_map_of_mem ?_))
      exact hts.mem_iff.2 ht
    have hsome := entryAt_of_mem (hkeys.nodup_iff.2 hm.tables_distinct) hread
    have hkey : t.matchKey = key := keyOf_entryAt hfound
    change n.tableAt t.matchKey = _ at hsome
    rw [hkey] at hsome
    rw [hsome]
    exact .some (Table.matches_reported_stored (hm.tables_storable t ht))

/-- Without its joins, a model matches the one that is read back. -/
theorem matches_stored {m n : Model} (hm : m.Storable) {ts : List Table}
    (hts : ts.Perm m.tables) (hjoinless : n.joins = [])
    (hn : n.tables.Perm ((ts.map Table.stored).map StoredTable.reported)) :
    Model.Matches (fun _ => true) { m with joins := [] } n where
  distinct := hm.tables_distinct
  distinct' := by
    refine (hn.map Table.matchKey).nodup_iff.2 ?_
    rw [List.map_map, List.map_map]
    exact (hts.map Table.matchKey).nodup_iff.2 hm.tables_distinct
  complete := List.forall_mem_nil _
  complete' := by
    rw [hjoinless]
    exact List.forall_mem_nil _
  tables key _ := tables_match_stored hm hts hn key
  joins := by
    rw [Model.signaturesIn, Model.anonymousJoins, Model.signaturesIn, Model.anonymousJoins,
      hjoinless]

section Rounds

variable {σ : Type} {e : Engine σ} {Holds : σ → List StoredTable → Prop}
  (he : e.KeepsTables Holds) {options : PlanOptions} (hskip : options.skipJoins = true)
  (hall : options.inclusion = .all) {m : Model} (hm : m.Storable)

include he hskip hall hm

/-- The plan for an empty database creates the tables of the model, in some order. -/
theorem exists_plan_empty {empty : σ} (hempty : Holds empty []) :
    ∃ (p : Plan) (ts : List Table), e.planFor empty options m = .ok p ∧
      ts.Perm m.tables ∧ p.tokens = ts.map Table.creation := by
  obtain ⟨n, hread, hjoinless, hperm⟩ := @Engine.KeepsTables.exists_introspect _ _ _ he _ [] hempty
    (List.forall_mem_nil _) .nil
  have hnone : n.tables = [] := hperm.eq_nil
  obtain ⟨p, hplan, htokens⟩ := exists_plan_of_joinless hskip hm.joins_complete hjoinless
  obtain ⟨honly, himported, hboth⟩ := difference_nil Table.matchKey m.tables
  have hslots : slotChanges options m n =
      (difference Table.matchKey m.tables []).onlyOriginal.map Change.addTable := by
    rw [slotChanges, tableDifference, hall, Model.tablesIn_all, Model.tablesIn_all, hnone]
    simp only [himported, hboth, List.map_nil, List.flatMap_nil, List.append_nil]
  refine ⟨p, _, ?_, honly, ?_⟩
  · rw [Engine.planFor, hall, hread]
    exact hplan
  · rw [htokens, hslots, List.map_map]
    exact sortTokens_creations _

/-- For a database with the tables of the model there is nothing to plan. -/
theorem exists_plan_stored {db : σ} {ts : List Table} (hts : ts.Perm m.tables)
    (hholds : Holds db (ts.map Table.stored)) :
    ∃ q, e.planFor db options m = .ok q ∧ q.tokens = [] := by
  have hstorable : ∀ t ∈ ts, t.Storable := fun t ht => hm.tables_storable t (hts.mem_iff.1 ht)
  have hdistinct : (ts.map Table.matchKey).Nodup := (hts.map _).nodup_iff.2 hm.tables_distinct
  obtain ⟨n, hread, hjoinless, hperm⟩ := he.exists_introspect hholds hstorable hdistinct
  obtain ⟨q, hplan, htokens⟩ := exists_plan_of_joinless hskip hm.joins_complete hjoinless
  have hscope : options.inclusion.IsScope fun _ => true := by
    rw [hall]
    exact Inclusion.isScope_all
  -- the changes of the tables are the same without the joins of the model
  have hslots : slotChanges options m n = [] :=
    slotChanges_of_matches (m := { m with joins := [] }) hscope
      (matches_stored hm hts hjoinless hperm)
  refine ⟨q, ?_, ?_⟩
  · rw [Engine.planFor, hall, hread]
    exact hplan
  · rw [htokens, hslots]
    rfl

end Rounds

/-- **An empty database is brought in line in one round**: the plan is rendered and carried out
    without a failure, with one statement for each table, and afterwards there is nothing to
    plan.  This is so for every engine that does what is assumed of SQLite. -/
theorem provision_settles {σ : Type} {e : Engine σ} {Holds : σ → List StoredTable → Prop}
    (he : e.KeepsTables Holds) {empty : σ} (hempty : Holds empty []) {m : Model}
    (hm : m.Storable) (skipKeys : Bool) :
    let options : PlanOptions := { skipJoins := true, skipKeys }
    ∃ p, e.planFor empty options m = .ok p ∧
      let report := (execute .sqlite p.tokens m).report
      let deployment := e.deploy false report empty
      report.isSuccess = true ∧ deployment.isSuccess = true ∧
        deployment.executed = m.tables.length ∧
        ∃ q, e.planFor deployment.state options m = .ok q ∧ q.tokens = [] := by
  intro options
  obtain ⟨p, ts, hplan, hts, htokens⟩ := @exists_plan_empty _ _ _ he options rfl rfl m hm _ hempty
  obtain ⟨hstatements, hsuccess⟩ := execute_creations ts m
  have hdistinct : (ts.map Table.matchKey).Nodup := (hts.map _).nodup_iff.2 hm.tables_distinct
  obtain ⟨db, hholds, hdeploy⟩ := Engine.exists_deploy_creations he hempty
    (fun t ht => hm.tables_storable t (hts.mem_iff.1 ht)) hdistinct hstatements
  refine ⟨p, hplan, ?_⟩
  rw [htokens]
  intro report deployment
  have hdeployment : deployment = { state := db, executed := ts.length } := hdeploy
  rw [hdeployment]
  exact ⟨hsuccess, rfl, hts.length_eq, exists_plan_stored he rfl rfl hm hts hholds⟩

/-- Two tables whose names come in another order than their keys, one of them with a key in
    another order and another spelling than its columns. -/
def museum : Model where
  tables :=
    [{ name := "painting"
       columns :=
         [⟨"ID", .integer, false, true⟩, ⟨"ROOM", .text, false, true⟩,
          ⟨"ARTIST_ID", .integer, true, false⟩, ⟨"IMAGE", .blob, true, false⟩]
       primaryKey := ["room", "id"] },
     { name := "ARTIST"
       columns := [⟨"ID", .integer, false, true⟩, ⟨"HEIGHT", .real, false, false⟩]
       primaryKey := ["ID"] }]
  joins :=
    [{ entities := ⟨"ARTIST", "PAINTING"⟩
       names := ⟨none, none⟩
       cardinality := .oneToMany
       dependentKey := .none
       condition := .single ⟨"ID", "ARTIST_ID"⟩ }]

theorem provision_settles_museum :
    ∃ p, Database.engine.planFor .empty { skipJoins := true } museum = .ok p ∧
      let deployment :=
        Database.engine.deploy false (execute .sqlite p.tokens museum).report .empty
      deployment.executed = 2 ∧
        ∃ q, Database.engine.planFor deployment.state { skipJoins := true } museum = .ok q ∧
          q.tokens = [] := by
  have hmuseum : museum.Storable := by decide +kernel
  obtain ⟨p, hplan, -, -, hexecuted, hagain⟩ :=
    provision_settles Database.engine_keepsTables ⟨rfl, .nil⟩ hmuseum false
  exact ⟨p, hplan, hexecuted, hagain⟩

end SchemaDrift
