/-
  SchemaDrift/Proofs/Filtering.lean
  =================================
  **What a filter keeps out of a plan.**

  A filter that decides tables by their folded names splits a model in two.  What it
  includes decides the plan: two models that agree on the included tables and joins
  have the same plans, whatever else they hold (`plan_of_sameIncluded`).  The places
  that look into the whole model look up the tables of an included join, and these are
  included themselves (`findTable?_of_includesJoin`).

  A plan in turn names included tables only, and included columns in every change but
  one.  The comparison of two primary keys reads both keys as they are, so that a
  change of a key names its columns, included or not: `plan_names`.  The excluded
  columns of a plan are those of the keys that differ, and `plan_hiddenKeyColumn` is
  the least such plan.
-/
import SchemaDrift.Proofs.Convergence
import SchemaDrift.Proofs.ForeignKey

namespace SchemaDrift

/-! ### Models that agree on what a filter includes -/

namespace Model

/-- Models with the same included tables and the same included joins. -/
structure SameIncluded (f : Inclusion) (m m' : Model) : Prop where
  tables : m.tablesIn f = m'.tablesIn f
  joins : m.joinsIn f = m'.joinsIn f

instance (f : Inclusion) (m m' : Model) : Decidable (SameIncluded f m m') :=
  decidable_of_iff (_ ∧ _) ⟨fun h => SameIncluded.mk h.1 h.2, fun h => ⟨h.1, h.2⟩⟩

/-- A model that has the tables of all its joins. -/
def JoinsComplete (m : Model) : Prop :=
  ∀ j ∈ m.joins, ∀ s, (m.findTable? (j.entity s)).isSome = true

instance (m : Model) : Decidable m.JoinsComplete :=
  inferInstanceAs (Decidable (∀ j ∈ m.joins, ∀ s, (m.findTable? (j.entity s)).isSome = true))

end Model

/-- Each side of an included join is included, with its table and its columns. -/
theorem Inclusion.GoesByName.side_included {f : Inclusion} {scope : String → Bool}
    (hf : f.GoesByName scope) {m : Model} {j : Join} (hj : j ∈ m.joinsIn f) (s : Side) :
    scope (foldName (j.entity s)) = true ∧
      ∀ name ∈ j.columns s, f.column (j.entity s) name = true := by
  have hincluded : f.includesJoin m j = true := List.of_mem_filter hj
  have hside : f.includesSide m j s = true :=
    Side.forall_mem_both.1 (List.all_eq_true.1 hincluded) s
  rw [hf.includesSide, Bool.and_eq_true, List.all_eq_true] at hside
  exact hside

section SameIncluded

variable {f : Inclusion} {scope : String → Bool} {m m' n : Model} (hf : f.GoesByName scope)
  (h : m.SameIncluded f m')

include hf h

theorem tableAt_of_sameIncluded {key : String} (hkey : scope key = true) :
    m.tableAt key = m'.tableAt key := by
  have htables := congrArg (entryAt Table.matchKey · key) h.tables
  simp only [hf.tablesIn, entryAt_filter, hkey, if_true] at htables
  exact htables

/-- An included join, of whichever model, finds the same tables in both. -/
theorem findTable?_of_includesJoin {j : Join} (hj : j ∈ n.joinsIn f) (s : Side) :
    m.findTable? (j.entity s) = m'.findTable? (j.entity s) := by
  rw [Model.findTable?_eq, Model.findTable?_eq]
  exact tableAt_of_sameIncluded hf h (hf.side_included hj s).1

theorem referencingSide_of_sameIncluded {j : Join} (hj : j ∈ n.joinsIn f) :
    j.referencingSide m = j.referencingSide m' := by
  rw [Join.referencingSide, Join.referencingSide, Join.isFullyToKey, Join.isFullyToKey,
    Model.tableOf, Model.tableOf, findTable?_of_includesJoin hf h hj]

theorem respell_of_sameIncluded {j : Join} (hj : j ∈ n.joinsIn f) :
    j.respell m = j.respell m' := by
  simp only [Join.respell, Join.respellEntity, Join.respellColumn,
    findTable?_of_includesJoin hf h hj]

end SameIncluded

/-! ### The changes of models that agree -/

section Plans

variable {options : PlanOptions} {scope : String → Bool}
  {original original' imported imported' : Model}

section Agreement

variable (hf : options.inclusion.GoesByName scope)
  (horiginal : original.SameIncluded options.inclusion original')
  (himported : imported.SameIncluded options.inclusion imported')

include horiginal himported in
theorem tableDifference_of_sameIncluded : tableDifference options.inclusion original imported =
    tableDifference options.inclusion original' imported' := by
  rw [tableDifference, tableDifference, horiginal.tables, himported.tables]

include horiginal himported in
theorem joinDifference_of_sameIncluded : joinDifference options.inclusion original imported =
    joinDifference options.inclusion original' imported' := by
  rw [joinDifference, joinDifference, horiginal.joins, himported.joins]

include hf horiginal himported in
theorem joinChanges_of_sameIncluded :
    joinChanges options original imported = joinChanges options original' imported' := by
  have hdrops : ∀ j ∈ (joinDifference options.inclusion original imported).onlyImported,
      Change.dropJoinOf j imported original = Change.dropJoinOf j imported' original' := by
    intro j hj
    have hincluded := mem_of_onlyImported hj
    rw [Change.dropJoinOf, Change.dropJoinOf,
      referencingSide_of_sameIncluded hf himported hincluded,
      respell_of_sameIncluded hf horiginal hincluded]
  have hadds : ∀ j ∈ (joinDifference options.inclusion original imported).onlyOriginal,
      Change.addJoinOf j original = Change.addJoinOf j original' := by
    intro j hj
    rw [Change.addJoinOf, Change.addJoinOf,
      referencingSide_of_sameIncluded hf horiginal (mem_of_onlyOriginal hj)]
  rw [joinChanges, joinChanges, ← joinDifference_of_sameIncluded horiginal himported]
  simp only [mapM_congr hdrops, mapM_congr hadds]

end Agreement

/-- **What a filter excludes has no influence on a plan.**  Complete models that agree on the
    included tables and joins have the same plan, or fail to have one in the same way. -/
theorem plan_of_sameIncluded (hf : options.inclusion.GoesByName scope)
    (horiginal : original.JoinsComplete) (horiginal' : original'.JoinsComplete)
    (himported : imported.JoinsComplete) (himported' : imported'.JoinsComplete)
    (hsame : original.SameIncluded options.inclusion original')
    (hsame' : imported.SameIncluded options.inclusion imported') :
    plan options original imported = plan options original' imported' := by
  have hvalid : ∀ {m : Model}, m.JoinsComplete → m.validateJoins = .ok () :=
    Model.validateJoins_eq_ok.2
  simp only [plan, hvalid horiginal, hvalid horiginal', hvalid himported, hvalid himported',
    tableDifference_of_sameIncluded hsame hsame', joinDifference_of_sameIncluded hsame hsame',
    joinChanges_of_sameIncluded hf hsame hsame']

end Plans

/-- Everything takes part but the tables with one folded name. -/
def Inclusion.without (key : String) : Inclusion :=
  ⟨fun _ _ name => foldName name != key, fun _ _ => true⟩

/-- A model with a log of its albums in front of its tables and joins. -/
def Model.logged (m : Model) : Model :=
  { m with
    tables := { name := "log", columns := [⟨"ALBUM_ID", .integer, true, false⟩] } :: m.tables
    joins :=
      { entities := ⟨"ALBUM", "LOG"⟩
        names := ⟨none, none⟩
        cardinality := .oneToMany
        dependentKey := .none
        condition := .single ⟨"ID", "ALBUM_ID"⟩ } :: m.joins }

theorem plan_of_sameIncluded_logged :
    plan { inclusion := .without "LOG" } sampleModel.logged sampleImport =
        plan { inclusion := .without "LOG" } sampleModel sampleImport.logged ∧
      (plan { inclusion := .without "LOG" } sampleModel.logged sampleImport).toOption.map
        (·.tokens.length) = some 12 := by
  have hf : (Inclusion.without "LOG").GoesByName (· != "LOG") := fun _ _ _ => rfl
  refine ⟨plan_of_sameIncluded hf ?_ ?_ ?_ ?_ ?_ ?_, ?_⟩ <;> decide +kernel

/-! ### What a plan names -/

namespace Change

/-- The tables that a change names: both tables of a join, and otherwise the one it is about. -/
def namedTables : Change → List String
  | addJoin j _ | dropJoin j _ => j.entities.toList
  | c => [c.table]

/-- The columns that a change names, each with its table.  A table that is added or dropped is
    named as a whole. -/
def namedColumns : Change → List (String × String)
  | addTable _ | dropTable _ => []
  | addColumn table c | dropColumn table c => [(table, c.name)]
  | addJoin j _ | dropJoin j _ =>
    Side.both.flatMap fun s => (j.columns s).map fun name => (j.entity s, name)
  | setPrimaryKey table old new => (old ++ new).map fun name => (table, name)
  | setColumnType table column _ _ => [(table, column)]
  | setNotNull table column | setAllowNull table column => [(table, column)]

end Change

/-- A filter that decides tables and columns by their folded names. -/
structure Inclusion.GoesByNames (f : Inclusion) (scope : String → Bool)
    (columns : String → String → Bool) : Prop where
  table : f.GoesByName scope
  column : ∀ table name, f.column table name = columns (foldName table) (foldName name)

section Names

variable {options : PlanOptions} {scope : String → Bool} {columns : String → String → Bool}
  (hf : options.inclusion.GoesByNames scope columns)

include hf

/-- An included join names included tables and columns, however it is spelled. -/
theorem included_of_spelledAs {m : Model} {j k : Join} (hk : k.SpelledAs j)
    (hj : j ∈ m.joinsIn options.inclusion) (s : Side) :
    scope (foldName (k.entity s)) = true ∧
      ∀ name ∈ k.columns s, options.inclusion.column (k.entity s) name = true := by
  obtain ⟨htable, hcolumns⟩ := hf.table.side_included hj s
  refine ⟨hk.entities s ▸ htable, fun name hname => ?_⟩
  have hfolded : foldName name ∈ (j.columns s).map foldName := by
    rw [← hk.columns]
    exact List.mem_map_of_mem hname
  obtain ⟨original, horiginal, heq⟩ := List.mem_map.1 hfolded
  have hcolumn := hcolumns original horiginal
  rw [hf.column] at hcolumn ⊢
  rw [hk.entities, ← heq]
  exact hcolumn

/-- The changes of the joins name included tables and columns. -/
theorem names_of_joinChanges {original imported : Model} {cs : List Change}
    (h : joinChanges options original imported = .ok cs) {c : Change} (hc : c ∈ cs) :
    (∀ name ∈ c.namedTables, scope (foldName name) = true) ∧
      ∀ place ∈ c.namedColumns, options.inclusion.column place.1 place.2 = true := by
  have hmoves := joinMoves_of_joinChanges h
  obtain ⟨m, j, k, hj, hspelled, htables, hcolumns⟩ : ∃ (m : Model) (j k : Join),
      j ∈ m.joinsIn options.inclusion ∧ k.SpelledAs j ∧ c.namedTables = k.entities.toList ∧
        c.namedColumns =
          Side.both.flatMap fun s => (k.columns s).map fun name => (k.entity s, name) := by
    have hkind := hmoves.kinds c hc
    cases c with
    | addJoin k referencing =>
      obtain ⟨j, hj, hspelled⟩ := hmoves.of_add k referencing hc
      exact ⟨original, j, k, mem_of_onlyOriginal (mem_of_joinsToAdd hj), hspelled, rfl, rfl⟩
    | dropJoin k referencing =>
      obtain ⟨j, hj, hspelled⟩ := hmoves.of_drop k referencing hc
      exact ⟨imported, j, k, mem_of_onlyImported hj, hspelled, rfl, rfl⟩
    | _ => cases hkind
  have hside := included_of_spelledAs hf hspelled hj
  rw [htables, hcolumns]
  refine ⟨fun name hname => ?_, fun place hplace => ?_⟩
  · obtain ⟨s, rfl⟩ := Sides.mem_toList.1 hname
    exact (hside s).1
  · obtain ⟨s, -, hplace⟩ := List.mem_flatMap.1 hplace
    obtain ⟨name, hname, rfl⟩ := List.mem_map.1 hplace
    exact (hside s).2 name hname

/-- Inside a table every change names one included column, but for the change of the key. -/
theorem columns_of_tableChanges {t u : Table} (hkey : t.matchKey = u.matchKey) {c : Change}
    (hc : c ∈ tableChanges options t u) :
    c ∈ keyChanges options t u ∨
      ∀ place ∈ c.namedColumns, options.inclusion.column place.1 place.2 = true := by
  have hwanted : ∀ column ∈ t.columnsIn options.inclusion,
      options.inclusion.column t.name column.name = true :=
    fun column hcolumn => (List.mem_filter.1 hcolumn).2
  have hactual : ∀ column ∈ u.columnsIn options.inclusion,
      options.inclusion.column t.name column.name = true := by
    intro column hcolumn
    have hincluded : options.inclusion.column u.name column.name = true :=
      (List.mem_filter.1 hcolumn).2
    rw [hf.column] at hincluded ⊢
    rw [← hincluded]
    exact congrArg (columns · _) hkey
  simp only [tableChanges, List.mem_append, List.mem_map, List.mem_flatMap] at hc
  rcases hc with ((⟨column, hcolumn, rfl⟩ | ⟨column, hcolumn, rfl⟩) | ⟨⟨w, a⟩, hpair, hc⟩) | hc
  · right
    intro place hplace
    rw [List.mem_singleton.1 hplace]
    exact hwanted column ((perm_originals _ _ _).subset (List.mem_append_right _ hcolumn))
  · right
    intro place hplace
    rw [List.mem_singleton.1 hplace]
    exact hactual column ((perm_imports _ _ _).subset (List.mem_append_right _ hcolumn))
  · right
    have hcolumn := hwanted w (mem_both hpair).1
    have hnamed : c.namedColumns = [(t.name, w.name)] := by
      rcases mem_columnChanges.1 hc with ⟨rfl, -⟩ | ⟨rfl, -⟩
      · rfl
      · rw [Change.setNullability]
        split <;> rfl
    intro place hplace
    rw [hnamed] at hplace
    rw [List.mem_singleton.1 hplace]
    exact hcolumn
  · exact .inl hc

theorem names_of_slotChanges {original imported : Model} {c : Change}
    (hc : c ∈ slotChanges options original imported) :
    (∀ name ∈ c.namedTables, scope (foldName name) = true) ∧
      ((∃ pair ∈ (tableDifference options.inclusion original imported).both,
          c ∈ keyChanges options pair.1 pair.2) ∨
        ∀ place ∈ c.namedColumns, options.inclusion.column place.1 place.2 = true) := by
  have hincluded : ∀ {m : Model} {t : Table}, t ∈ m.tablesIn options.inclusion →
      scope (foldName t.name) = true := by
    intro m t ht
    rw [hf.table.tablesIn] at ht
    exact (List.mem_filter.1 ht).2
  rcases mem_slotChanges.1 hc with ⟨t, ht, rfl⟩ | ⟨t, ht, rfl⟩ | ⟨⟨t, u⟩, hpair, hc⟩
  · refine ⟨fun name hname => ?_, .inr fun _ hnone => nomatch hnone⟩
    rw [List.mem_singleton.1 hname]
    exact hincluded ((perm_originals _ _ _).subset (List.mem_append_right _ ht))
  · refine ⟨fun name hname => ?_, .inr fun _ hnone => nomatch hnone⟩
    rw [List.mem_singleton.1 hname]
    exact hincluded ((perm_imports _ _ _).subset (List.mem_append_right _ ht))
  · obtain ⟨ht, -, hkey⟩ := mem_both hpair
    obtain ⟨hkind, htable⟩ := mem_tableChanges hc
    have hnamed : c.namedTables = [t.name] := by
      rw [← htable]
      cases c <;> first | rfl | cases hkind
    refine ⟨fun name hname => ?_, ?_⟩
    · rw [hnamed] at hname
      rw [List.mem_singleton.1 hname]
      exact hincluded ht
    · rcases columns_of_tableChanges hf hkey hc with hkeys | hcolumns
      · exact .inl ⟨_, hpair, hkeys⟩
      · exact .inr hcolumns

/-- **A plan names what the filter includes**, but for the columns of keys.  The tables that its
    changes name are included, and so are the columns, except that a change of a key names both
    keys in full: every named column is included just if every key that changes has included
    columns only. -/
theorem plan_names {original imported : Model} {p : Plan}
    (h : plan options original imported = .ok p) :
    (∀ c ∈ p.changes, ∀ name ∈ c.namedTables, scope (foldName name) = true) ∧
      (∀ c ∈ p.changes, c.kind ≠ .setPrimaryKey →
        ∀ place ∈ c.namedColumns, options.inclusion.column place.1 place.2 = true) ∧
      ((∀ c ∈ p.changes, ∀ place ∈ c.namedColumns,
          options.inclusion.column place.1 place.2 = true) ↔
        options.skipKeys = true ∨
          ∀ pair ∈ (tableDifference options.inclusion original imported).both,
            pair.1.foldedKey = pair.2.foldedKey ∨
              ∀ name ∈ pair.1.primaryKey ++ pair.2.primaryKey,
                options.inclusion.column pair.1.name name = true) := by
  obtain ⟨ofJoins, hofJoins, hperm⟩ := Plan.perm_changes h
  have hnames : ∀ c ∈ p.changes, (∀ name ∈ c.namedTables, scope (foldName name) = true) ∧
      ((∃ pair ∈ (tableDifference options.inclusion original imported).both,
          c ∈ keyChanges options pair.1 pair.2) ∨
        ∀ place ∈ c.namedColumns, options.inclusion.column place.1 place.2 = true) := by
    intro c hc
    rcases List.mem_append.1 (hperm.subset hc) with hslot | hjoin
    · exact names_of_slotChanges hf hslot
    · obtain ⟨htables, hcolumns⟩ := names_of_joinChanges hf hofJoins hjoin
      exact ⟨htables, .inr hcolumns⟩
  refine ⟨fun c hc => (hnames c hc).1, fun c hc hkind => ?_, fun hall => ?_, fun hkeys c hc => ?_⟩
  · rcases (hnames c hc).2 with ⟨pair, -, hkey⟩ | hcolumns
    · obtain ⟨-, -, rfl⟩ := mem_keyChanges.1 hkey
      exact absurd rfl hkind
    · exact hcolumns
  · rw [or_iff_not_imp_left, Bool.not_eq_true]
    intro hskip pair hpair
    rw [or_iff_not_imp_left]
    intro hdiffer name hname
    have hkey := mem_keyChanges.2 ⟨hskip, hdiffer, rfl⟩
    have hchange := hperm.symm.subset (List.mem_append_left ofJoins
      (mem_slotChanges.2 (.inr (.inr ⟨pair, hpair, List.mem_append_right _ hkey⟩))))
    have hnamed : name ∈ pair.2.primaryKey ++ pair.1.primaryKey :=
      List.perm_append_comm.subset hname
    exact hall _ hchange (pair.1.name, name) (List.mem_map_of_mem hnamed)
  · rcases (hnames c hc).2 with ⟨pair, hpair, hkey⟩ | hcolumns
    · obtain ⟨hskip, hdiffer, rfl⟩ := mem_keyChanges.1 hkey
      rw [hskip] at hkeys
      rcases hkeys with hskipped | hkeys
      · cases hskipped
      intro place hplace
      obtain ⟨name, hname, rfl⟩ := List.mem_map.1 hplace
      exact ((hkeys pair hpair).resolve_left hdiffer) name (List.perm_append_comm.subset hname)
    · exact hcolumns

end Names

/-- Everything takes part but the genres, and the titles of all tables. -/
def excerpt : Inclusion :=
  ⟨fun _ _ name => foldName name != "GENRE", fun _ name => foldName name != "TITLE"⟩

def excerptPlan : Plan :=
  (plan { inclusion := excerpt } sampleModel sampleImport).toOption.getD {}

theorem plan_names_excerpt :
    plan { inclusion := excerpt } sampleModel sampleImport = .ok excerptPlan ∧
      excerptPlan.tokens.length = 10 ∧
      (∀ c ∈ excerptPlan.changes, ∀ name ∈ c.namedTables, (foldName name != "GENRE") = true) ∧
      (∀ c ∈ excerptPlan.changes, c.kind ≠ .setPrimaryKey →
        ∀ place ∈ c.namedColumns, excerpt.column place.1 place.2 = true) ∧
      ((∀ c ∈ excerptPlan.changes, ∀ place ∈ c.namedColumns,
          excerpt.column place.1 place.2 = true) ↔
        false = true ∨ ∀ pair ∈ (tableDifference excerpt sampleModel sampleImport).both,
          pair.1.foldedKey = pair.2.foldedKey ∨
            ∀ name ∈ pair.1.primaryKey ++ pair.2.primaryKey,
              excerpt.column pair.1.name name = true) := by
  have hplan : plan { inclusion := excerpt } sampleModel sampleImport = .ok excerptPlan := by
    decide +kernel
  have hf : excerpt.GoesByNames (· != "GENRE") (fun _ key => key != "TITLE") :=
    ⟨fun _ _ _ => rfl, fun _ _ => rfl⟩
  exact ⟨hplan, by decide +kernel, plan_names hf hplan⟩

/-- Everything takes part but the columns with one folded name. -/
def Inclusion.withoutColumn (key : String) : Inclusion :=
  ⟨fun _ _ _ => true, fun _ name => foldName name != key⟩

/-- A model with one table of two columns, some of which are its key. -/
def vault (key : List String) : Model where
  tables :=
    [Table.setPrimaryKey
      { name := "VAULT"
        columns := [⟨"ID", .integer, false, false⟩, ⟨"SECRET", .integer, false, false⟩] } key]

/-- An excluded column is named where the keys of a table differ in it. -/
theorem plan_hiddenKeyColumn :
    plan { inclusion := .withoutColumn "SECRET" } (vault ["ID", "SECRET"]) (vault ["ID"]) =
        .ok { tokens := [⟨.toDatabase, .setPrimaryKey "VAULT" ["ID"] ["ID", "SECRET"]⟩] } ∧
      (∀ table name, (Inclusion.withoutColumn "SECRET").column table name =
        (foldName name != "SECRET")) ∧
      ("VAULT", "SECRET") ∈
        (Change.setPrimaryKey "VAULT" ["ID"] ["ID", "SECRET"]).namedColumns ∧
      (Inclusion.withoutColumn "SECRET").column "VAULT" "SECRET" = false :=
  ⟨by decide +kernel, fun _ _ => rfl, by decide +kernel, by decide +kernel⟩

end SchemaDrift
