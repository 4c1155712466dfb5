/-
  SchemaDrift/Proofs/Rendering.lean
  =================================
  **What the statements of PostgreSQL tell of a change.**

  A change is rendered as a list of texts.  The texts determine the statements
  (`postgresChange_eq_of_render_eq`), and the statements determine the change up to what its
  kind does not tell a database: of a table that is dropped the name is told and nothing
  else, of a new column everything but whether it belongs to the key.  `Change.SaysAs` lists
  what is told by each kind.

  Main statement: `render_postgres_eq_iff`.  Two kinds are left out.  The constraint that
  drops a join is known by a name in lower case, and a change of the primary key can be
  rendered as no statement at all.
-/
import SchemaDrift.Proofs.StatementText

namespace SchemaDrift

/-- Two lists that agree behind one function agree behind every other that it determines. -/
theorem map_eq_map_of {α β γ : Type} {f : α → β} {g : α → γ} {as bs : List α}
    (hfg : ∀ a ∈ as, ∀ b ∈ bs, f a = f b → g a = g b) (h : as.map f = bs.map f) :
    as.map g = bs.map g := by
  induction as generalizing bs with
  | nil =>
    cases bs with
    | nil => rfl
    | cons b bs => cases h
  | cons a as ih =>
    cases bs with
    | nil => cases h
    | cons b bs =>
      obtain ⟨hhead, htail⟩ := List.cons.inj h
      rw [List.map_cons, List.map_cons, hfg a List.mem_cons_self b List.mem_cons_self hhead,
        ih (fun a ha b hb => hfg a (.tail _ ha) b (.tail _ hb)) htail]

/-- What a statement says of a column: its name, its type and whether it allows NULL. -/
def Column.declaration (c : Column) : String × SqlType × Bool := (c.name, c.type, c.nullable)

namespace Change

/-- The types that the statements of a change name. -/
def types : Change → List SqlType
  | addTable table => table.columns.map Column.type
  | addColumn _ column => [column.type]
  | setColumnType _ _ _ new => [new]
  | _ => []

/-- Two changes of one kind that agree on all that their kind tells a database. -/
inductive SaysAs : Change → Change → Prop
  | addTable {t u : Table} (hname : t.name = u.name)
      (hcolumns : t.columns.map Column.declaration = u.columns.map Column.declaration)
      (hkey : t.primaryKey = u.primaryKey) : SaysAs (.addTable t) (.addTable u)
  | dropTable {t u : Table} (hname : t.name = u.name) : SaysAs (.dropTable t) (.dropTable u)
  | addColumn (table : String) {c d : Column} (h : c.declaration = d.declaration) :
    SaysAs (.addColumn table c) (.addColumn table d)
  | dropColumn (table : String) {c d : Column} (h : c.name = d.name) :
    SaysAs (.dropColumn table c) (.dropColumn table d)
  | addJoin {j k : Join} {s t : Side} (h : ForeignKey.ofJoin j s = ForeignKey.ofJoin k t) :
    SaysAs (.addJoin j s) (.addJoin k t)
  | setColumnType (table column : String) (old old' new : SqlType) :
    SaysAs (.setColumnType table column old new) (.setColumnType table column old' new)
  | setNotNull (table column : String) :
    SaysAs (.setNotNull table column) (.setNotNull table column)
  | setAllowNull (table column : String) :
    SaysAs (.setAllowNull table column) (.setAllowNull table column)

/-- A change that can be read off its statements: it neither drops a join nor replaces a primary
    key, and names known types only. -/
structure Legible (c : Change) : Prop where
  notDropJoin : c.kind ≠ .dropJoin
  notSetPrimaryKey : c.kind ≠ .setPrimaryKey
  known : ∀ type ∈ c.types, type.isKnown = true

end Change

/-! ### The statements of a change -/

theorem isTyped_defineColumn {c : Column} (h : c.type.isKnown = true) :
    (Dialect.defineColumn Dialect.postgresType c).IsTyped := ⟨c.type, h, rfl⟩

theorem isTyped_postgresChange {c : Change} (h : ∀ type ∈ c.types, type.isKnown = true) :
    ∀ s ∈ Dialect.postgresChange c, s.IsTyped := by
  cases c with
  | addTable t =>
    refine List.forall_mem_singleton.2 (List.forall_mem_map.2 fun column hcolumn => ?_)
    exact isTyped_defineColumn (h _ (List.mem_map_of_mem hcolumn))
  | addColumn table column =>
    exact List.forall_mem_singleton.2 (isTyped_defineColumn (h _ List.mem_cons_self))
  | setPrimaryKey table old new =>
    intro s hs
    rcases List.mem_append.1 hs with hdrop | hadd
    · split at hdrop
      · cases hdrop
      · rw [List.mem_singleton.1 hdrop]
        trivial
    · split at hadd
      · cases hadd
      · rw [List.mem_singleton.1 hadd]
        trivial
  | _ => exact List.forall_mem_singleton.2 trivial

/-- The texts of a change determine its statements, for changes of every kind. -/
theorem postgresChange_eq_of_render_eq {c d : Change}
    (hc : ∀ type ∈ c.types, type.isKnown = true) (hd : ∀ type ∈ d.types, type.isKnown = true)
    (h : Dialect.postgres.render c = Dialect.postgres.render d) :
    Dialect.postgresChange c = Dialect.postgresChange d := by
  have htexts : (Dialect.postgresChange c).map Statement.sql =
      (Dialect.postgresChange d).map Statement.sql := Except.ok.inj h
  have hsame := map_eq_map_of (g := id) (fun s hs t ht heq =>
    Statement.eq_of_sql_eq (isTyped_postgresChange hc s hs) (isTyped_postgresChange hd t ht) heq)
    htexts
  simpa only [List.map_id] using hsame

theorem declaration_eq_of_defineColumn_eq {c d : Column} (hc : c.type.isKnown = true)
    (hd : d.type.isKnown = true)
    (h : Dialect.defineColumn Dialect.postgresType c =
      Dialect.defineColumn Dialect.postgresType d) : c.declaration = d.declaration := by
  obtain ⟨hname, htype, hnull⟩ := ColumnDefinition.mk.inj h
  have htypes : c.type = d.type :=
    delimited_postgresType.injOn hc hd (congrArg String.toList htype)
  rw [Column.declaration, Column.declaration, hname, htypes, Bool.not_inj hnull]

theorem defineColumn_eq_of_declaration_eq {c d : Column} (h : c.declaration = d.declaration)
    (typeName : SqlType → String) :
    Dialect.defineColumn typeName c = Dialect.defineColumn typeName d := by
  obtain ⟨hname, htype, hnull⟩ := by
    simpa only [Column.declaration, Prod.mk.injEq] using h
  rw [Dialect.defineColumn, Dialect.defineColumn, hname, htype, hnull]

/-- The statements of a legible change determine what it says. -/
theorem saysAs_of_postgresChange_eq {c d : Change} (hc : c.Legible) (hd : d.Legible)
    (h : Dialect.postgresChange c = Dialect.postgresChange d) : c.SaysAs d := by
  -- a legible change has one statement, and each kind of change a statement of its own
  cases c with
  | dropJoin => exact absurd rfl hc.notDropJoin
  | setPrimaryKey => exact absurd rfl hc.notSetPrimaryKey
  | addTable t =>
    cases d with
    | addTable u =>
      obtain ⟨hname, hcolumns, hkey⟩ := Statement.createTable.inj (List.cons.inj h).1
      refine .addTable hname (map_eq_map_of (fun c hct d hdu => ?_) hcolumns) hkey
      exact declaration_eq_of_defineColumn_eq (hc.known _ (List.mem_map_of_mem hct))
        (hd.known _ (List.mem_map_of_mem hdu))
    | setPrimaryKey => exact absurd rfl hd.notSetPrimaryKey
    | _ => cases h
  | dropTable t =>
    cases d with
    | dropTable u => exact .dropTable (Statement.dropTable.inj (List.cons.inj h).1).1
    | setPrimaryKey => exact absurd rfl hd.notSetPrimaryKey
    | _ => cases h
  | addColumn table column =>
    cases d with
    | addColumn table' column' =>
      obtain ⟨rfl, hcolumn⟩ := Statement.addColumn.inj (List.cons.inj h).1
      exact .addColumn table (declaration_eq_of_defineColumn_eq (hc.known _ List.mem_cons_self)
        (hd.known _ List.mem_cons_self) hcolumn)
    | setPrimaryKey => exact absurd rfl hd.notSetPrimaryKey
    | _ => cases h
  | dropColumn table column =>
    cases d with
    | dropColumn table' column' =>
      obtain ⟨rfl, hcolumn⟩ := Statement.dropColumn.inj (List.cons.inj h).1
      exact .dropColumn table hcolumn
    | setPrimaryKey => exact absurd rfl hd.notSetPrimaryKey
    | _ => cases h
  | addJoin j s =>
    cases d with
    | addJoin k t => exact .addJoin (Statement.addForeignKey.inj (List.cons.inj h).1)
    | setPrimaryKey => exact absurd rfl hd.notSetPrimaryKey
    | _ => cases h
  | setColumnType table column old new =>
    cases d with
    | setColumnType table' column' old' new' =>
      obtain ⟨rfl, rfl, htype⟩ := Statement.setType.inj (List.cons.inj h).1
      have hnew : new = new' := delimited_postgresType.injOn (hc.known _ List.mem_cons_self)
        (hd.known _ List.mem_cons_self) (congrArg String.toList htype)
      rw [hnew]
      exact .setColumnType table column old old' new'
    | setPrimaryKey => exact absurd rfl hd.notSetPrimaryKey
    | _ => cases h
  | setNotNull table column =>
    cases d with
    | setNotNull table' column' =>
      obtain ⟨rfl, rfl⟩ := Statement.setNotNull.inj (List.cons.inj h).1
      exact .setNotNull table column
    | setPrimaryKey => exact absurd rfl hd.notSetPrimaryKey
    | _ => cases h
  | setAllowNull table column =>
    cases d with
    | setAllowNull table' column' =>
      obtain ⟨rfl, rfl⟩ := Statement.dropNotNull.inj (List.cons.inj h).1
      exact .setAllowNull table column
    | setPrimaryKey => exact absurd rfl hd.notSetPrimaryKey
    | _ => cases h

theorem postgresChange_eq_of_saysAs {c d : Change} (h : c.SaysAs d) :
    Dialect.postgresChange c = Dialect.postgresChange d := by
  cases h with
  | addTable hname hcolumns hkey =>
    have hdefined := map_eq_map_of (fun c _ d _ heq =>
      defineColumn_eq_of_declaration_eq heq Dialect.postgresType) hcolumns
    simp only [Dialect.postgresChange, Dialect.defineTable, hname, hdefined, hkey]
  | dropTable hname => simp only [Dialect.postgresChange, hname]
  | addColumn table h =>
    simp only [Dialect.postgresChange, defineColumn_eq_of_declaration_eq h Dialect.postgresType]
  | dropColumn table h => simp only [Dialect.postgresChange, h]
  | addJoin h => simp only [Dialect.postgresChange, h]
  | setColumnType | setNotNull | setAllowNull => rfl

/-- **The texts that PostgreSQL gets for two changes are the same exactly if the changes say the
    same**, whatever the names in them. -/
theorem render_postgres_eq_iff {c d : Change} (hc : c.Legible) (hd : d.Legible) :
    Dialect.postgres.render c = Dialect.postgres.render d ↔ c.SaysAs d := by
  refine ⟨fun h => ?_, fun h => ?_⟩
  · exact saysAs_of_postgresChange_eq hc hd (postgresChange_eq_of_render_eq hc.known hd.known h)
  · simp only [Dialect.render, Dialect.postgres, postgresChange_eq_of_saysAs h]

/-- A column whose name pretends to be a type and the beginning of a second column. -/
theorem render_postgres_ne_pretended :
    Dialect.postgres.render (.addTable
        { name := "A", columns := [⟨"X\" TEXT,\n  \"Y", .text, true, false⟩] }) ≠
      Dialect.postgres.render (.addTable
        { name := "A", columns := [⟨"X", .text, true, false⟩, ⟨"Y", .text, true, false⟩] }) := by
  intro h
  have htold := (render_postgres_eq_iff ⟨by decide, by decide, by decide⟩
    ⟨by decide, by decide, by decide⟩).1 h
  cases htold with
  | addTable hname hcolumns hkey => exact absurd (congrArg List.length hcolumns) (by decide)

end SchemaDrift
