/-
  SchemaDrift/Proofs/Introspection.lean
  =====================================
  **What is read back of a table.**

  A catalog describes a table by a row for each column, in the order of the columns, and the
  row of a key column tells its position in the key.  The rows are read in one pass
  (`StoredTable.foldlM_columnRow`); the entries of the key are collected on the way and sorted
  at the end.  Positions are not repeated, so there is one arrangement in which they increase
  (`mergeSort_eq`).  The key in its own order is such an arrangement
  (`StoredTable.pairwise_placedKey`) of the entries (`StoredTable.perm_keyMembers`), and so it
  is what comes back, in whatever order the columns stand
  (`StoredTable.readTable_columnRows`).

  A database is read table by table, in the order of the names.  Main statement:
  `Engine.exists_introspect`, for any engine and any filter, if no table has foreign keys.
-/
import Mathlib.Data.List.Perm.Basic
import SchemaDrift.Database.Catalog
import SchemaDrift.Database.Introspection
import SchemaDrift.Proofs.WellFormed

namespace SchemaDrift

/-! ### The order of a key -/

theorem comesBefore_iff {a b : Int × String} :
    comesBefore a b = true ↔ a.1 < b.1 ∨ a.1 = b.1 ∧ a.2 ≤ b.2 := by
  simp [comesBefore]

theorem comesBefore_trans (a b c : Int × String) (hab : comesBefore a b = true)
    (hbc : comesBefore b c = true) : comesBefore a c = true := by
  rw [comesBefore_iff] at *
  rcases hab with hab | ⟨hab, hab'⟩ <;> rcases hbc with hbc | ⟨hbc, hbc'⟩
  · exact .inl (Int.lt_trans hab hbc)
  · exact .inl (hbc ▸ hab)
  · exact .inl (hab ▸ hbc)
  · exact .inr ⟨hab.trans hbc, String.le_trans hab' hbc'⟩

theorem comesBefore_total (a b : Int × String) : (comesBefore a b || comesBefore b a) = true := by
  rw [Bool.or_eq_true, comesBefore_iff, comesBefore_iff]
  rcases Int.lt_trichotomy a.1 b.1 with h | h | h
  · exact .inl (.inl h)
  · exact (String.le_total a.2 b.2).imp (fun hle => .inr ⟨h, hle⟩) fun hle => .inr ⟨h.symm, hle⟩
  · exact .inr (.inl h)

theorem comesBefore_antisymm {a b : Int × String} (hab : comesBefore a b = true)
    (hba : comesBefore b a = true) : a = b := by
  rw [comesBefore_iff] at hab hba
  have hfirst : a.1 = b.1 := by omega
  refine Prod.ext hfirst (String.le_antisymm ?_ ?_)
  · exact (hab.resolve_left (by omega)).2
  · exact (hba.resolve_left (by omega)).2

/-- Sorting finds the one arrangement of some entries in which the positions increase. -/
theorem mergeSort_eq {entries sorted : List (Int × String)} (hperm : entries.Perm sorted)
    (hsorted : sorted.Pairwise fun a b => a.1 < b.1) : entries.mergeSort comesBefore = sorted := by
  refine List.Perm.eq_of_pairwise (fun a b _ _ => comesBefore_antisymm)
    (List.pairwise_mergeSort comesBefore_trans comesBefore_total entries) ?_
    ((List.mergeSort_perm entries comesBefore).trans hperm)
  exact hsorted.imp fun h => comesBefore_iff.2 (.inl h)

namespace StoredTable

/-! ### The rows of a table -/

/-- What is read of a column. -/
def reportedColumn (t : StoredTable) (c : ColumnDefinition) : Column where
  name := c.name
  type := .ofDeclared c.type
  nullable := !c.notNull && !namedIn t.key c.name
  key := namedIn t.key c.name

/-- The entry of a column in the key, if it has one. -/
def keyMember? (t : StoredTable) (c : ColumnDefinition) : Option (Int × String) :=
  if namedIn t.key c.name then some (t.keyPosition c.name, c.name) else none

/-- The entries of the key in key order, in the spelling of the columns. -/
def placedKey (t : StoredTable) : List (Int × String) :=
  t.key.zipIdx.map fun entry => (((entry.2 + 1 : Nat) : Int), t.spelling entry.1)

/-- What is read of a table. -/
def reported (t : StoredTable) : Table where
  name := t.name
  columns := t.columns.map t.reportedColumn
  primaryKey := t.key.map t.spelling

theorem keyPosition_pos_iff {t : StoredTable} {name : String} :
    0 < t.keyPosition name ↔ namedIn t.key name = true := by
  have hsome : (t.key.findIdx? (sameName · name)).isSome = namedIn t.key name := by
    rw [List.findIdx?_isSome, namedIn]
    exact congrArg t.key.any (funext fun entry => sameName_comm entry name)
  rw [← hsome, keyPosition]
  cases t.key.findIdx? (sameName · name) <;> simp

/-- A row adds its column, and its entry in the key if it has one. -/
theorem step_columnRow (t : StoredTable) (r : TableReading) (place : Nat) (c : ColumnDefinition) :
    r.step (t.columnRow place c) =
      .ok {
        columns := r.columns ++ [t.reportedColumn c]
        key := r.key ++ (t.keyMember? c).toList } := by
  have hname : (t.columnRow place c).text "name" = .ok c.name := rfl
  have htype : (t.columnRow place c).text "type" = .ok c.type := rfl
  have hnotNull : (t.columnRow place c).integer "notnull" = .ok (if c.notNull then 1 else 0) := rfl
  have hposition : (t.columnRow place c).integer "pk" = .ok (t.keyPosition c.name) := rfl
  have hnull : ((if c.notNull then 1 else 0 : Int) == 0) = !c.notNull := by
    cases c.notNull <;> rfl
  have hzero : ((t.keyPosition c.name : Int) == 0) = !namedIn t.key c.name := by
    rw [Bool.eq_iff_iff, beq_iff_eq, Bool.not_eq_true', ← Bool.not_eq_true, ← keyPosition_pos_iff]
    omega
  have hpos : (0 < (t.keyPosition c.name : Int)) ↔ namedIn t.key c.name = true := by
    rw [← keyPosition_pos_iff, Int.natCast_pos]
  rw [TableReading.step, hname, htype, hnotNull, hposition]
  simp only [bind, Except.bind, pure, Except.pure, hnull, hzero, hpos, Bool.decide_eq_true]
  rw [keyMember?, reportedColumn]
  cases namedIn t.key c.name <;> simp

/-- The rows of a table are read one by one, whatever number the first of them has. -/
theorem foldlM_columnRow (t : StoredTable) (cs : List ColumnDefinition) (first : Nat)
    (r : TableReading) :
    ((cs.zipIdx first).map fun (c, place) => t.columnRow place c).foldlM TableReading.step r =
      .ok {
        columns := r.columns ++ cs.map t.reportedColumn
        key := r.key ++ cs.filterMap t.keyMember? } := by
  induction cs generalizing first r with
  | nil => simp [pure, Except.pure]
  | cons c cs ih =>
    rw [List.zipIdx_cons, List.map_cons, List.foldlM_cons, step_columnRow]
    refine (ih (first + 1) _).trans ?_
    cases hentry : t.keyMember? c with
    | none => simp [hentry]
    | some entry => simp [hentry]

/-! ### The key -/

/-- A table whose columns have names of their own and whose key lists some of them, each once. -/
structure Coherent (t : StoredTable) : Prop where
  columns_distinct : (t.columns.map fun c => foldName c.name).Nodup
  key_distinct : (t.key.map foldName).Nodup
  key_found : ∀ name ∈ t.key, (t.findColumn? name).isSome = true

/-- In a key without repetitions the position of a name is its place. -/
theorem keyPosition_eq_succ {t : StoredTable} (h : t.Coherent) {column name : String} {place : Nat}
    (hname : t.key[place]? = some name) (hsame : foldName name = foldName column) :
    t.keyPosition column = place + 1 := by
  obtain ⟨hplace, rfl⟩ := List.getElem?_eq_some_iff.1 hname
  have hfirst : t.key.findIdx? (sameName · column) = some place := by
    refine List.findIdx?_eq_some_iff_getElem.2
      ⟨hplace, sameName_iff.2 hsame, fun i hi hsame' => ?_⟩
    have hne := List.pairwise_iff_getElem.1 (List.pairwise_map.1 h.key_distinct) i place
      (Nat.lt_trans hi hplace) hplace hi
    exact hne ((sameName_iff.1 hsame').trans hsame.symm)
  rw [keyPosition, hfirst]

/-- A name is spelled as the column that it finds. -/
theorem spelling_eq {t : StoredTable} (h : t.Coherent) {c : ColumnDefinition} (hc : c ∈ t.columns)
    {name : String} (hsame : foldName name = foldName c.name) : t.spelling name = c.name := by
  have hfound : t.findColumn? name = some c := by
    have hentry := entryAt_of_mem h.columns_distinct hc
    rw [← hsame] at hentry
    exact hentry
  rw [spelling, hfound]
  rfl

theorem mem_keyMembers_iff {t : StoredTable} (h : t.Coherent) {entry : Int × String} :
    entry ∈ t.columns.filterMap t.keyMember? ↔ entry ∈ t.placedKey := by
  rw [List.mem_filterMap, placedKey, List.mem_map]
  constructor
  · rintro ⟨c, hc, hentry⟩
    obtain ⟨hnamed, hentry⟩ := Option.ite_none_right_eq_some.1 hentry
    obtain ⟨name, hname, hsame⟩ := List.mem_map.1 (namedIn_iff.1 hnamed)
    obtain ⟨place, hplace⟩ := List.mem_iff_getElem?.1 hname
    refine ⟨(name, place), List.mem_zipIdx_iff_getElem?.2 hplace, ?_⟩
    rw [← Option.some_inj.1 hentry, keyPosition_eq_succ h hplace hsame, spelling_eq h hc hsame]
  · rintro ⟨⟨name, place⟩, hmem, rfl⟩
    have hplace : t.key[place]? = some name := List.mem_zipIdx_iff_getElem?.1 hmem
    have hname : name ∈ t.key := List.mem_of_getElem? hplace
    obtain ⟨c, hfound⟩ := Option.isSome_iff_exists.1 (h.key_found name hname)
    have hc : c ∈ t.columns := List.mem_of_find?_eq_some hfound
    have hsame : foldName name = foldName c.name := (keyOf_entryAt hfound).symm
    have hnamed : namedIn t.key c.name = true :=
      namedIn_iff.2 (hsame ▸ List.mem_map_of_mem hname)
    refine ⟨c, hc, ?_⟩
    rw [keyMember?, if_pos hnamed, keyPosition_eq_succ h hplace hsame, spelling_eq h hc hsame]

theorem pairwise_placedKey (t : StoredTable) : t.placedKey.Pairwise fun a b => a.1 < b.1 := by
  have hplaces : (t.key.zipIdx.map Prod.snd).Pairwise (· < ·) := by
    rw [List.zipIdx_map_snd]
    exact List.pairwise_lt_range'
  rw [placedKey, List.pairwise_map]
  exact (List.pairwise_map.1 hplaces).imp fun h => by simpa using h

theorem perm_keyMembers {t : StoredTable} (h : t.Coherent) :
    (t.columns.filterMap t.keyMember?).Perm t.placedKey := by
  refine (List.perm_ext_iff_of_nodup ?_ ?_).2 fun _ => mem_keyMembers_iff h
  · refine List.pairwise_filterMap.2 ((List.pairwise_map.1 h.columns_distinct).imp ?_)
    rintro c d hne _ hentry _ hentry' rfl
    have hname := (Option.ite_none_right_eq_some.1 hentry).2.trans
      (Option.ite_none_right_eq_some.1 hentry').2.symm
    simp only [Option.some.injEq, Prod.mk.injEq] at hname
    exact hne (congrArg foldName hname.2)
  · refine (pairwise_placedKey t).imp ?_
    rintro a b hab rfl
    exact Int.lt_irrefl _ hab

/-- **A table is read as it is stored**: from rows in the order of the columns the key comes back in
    its own order. -/
theorem readTable_columnRows {t : StoredTable} (h : t.Coherent) :
    readTable t.name t.columnRows = .ok t.reported := by
  have hrows := t.foldlM_columnRow t.columns 0 {}
  have hkey := mergeSort_eq (perm_keyMembers h) (pairwise_placedKey t)
  have hnames : t.placedKey.map (·.2) = t.key.map t.spelling := by
    have hkeys : t.key.zipIdx.map Prod.fst = t.key := List.zipIdx_map_fst 0 t.key
    rw [placedKey, List.map_map, ← hkeys, List.map_map, hkeys]
    rfl
  rw [readTable, columnRows, hrows]
  simp only [bind, Except.bind, pure, Except.pure, List.nil_append, hkey, hnames]
  rfl

end StoredTable

/-! ### Databases without foreign keys -/

/-- The names of the tables of a database, if they are names of their own and none belongs to the
    database itself. -/
theorem Database.perm_userNames {ts : List StoredTable} (hnames : (ts.map StoredTable.name).Nodup)
    (huser : ∀ t ∈ ts, StoredTable.isInternalName t.name = false) :
    (Database.mk ts).userNames.Perm (ts.map StoredTable.name) := by
  have hall : (ts.map StoredTable.name).filter (fun name => !StoredTable.isInternalName name) =
      ts.map StoredTable.name := by
    refine List.filter_eq_self.2 fun name hname => ?_
    obtain ⟨t, ht, rfl⟩ := List.mem_map.1 hname
    rw [huser t ht]
    rfl
  rw [userNames, hall]
  refine (List.perm_ext_iff_of_nodup ?_ hnames).2 fun _ => mem_sortDistinct
  exact (pairwise_sortDistinct _).imp fun hlt => String.ne_of_lt hlt

namespace Engine

variable {σ : Type} {e : Engine σ} {db : σ}

/-- What a database says of a table without foreign keys. -/
structure Shows (e : Engine σ) (db : σ) (t : StoredTable) : Prop where
  coherent : t.Coherent
  columns : e.ask db (.columns t.name) = .ok t.columnRows
  foreignKeys : e.ask db (.foreignKeys t.name) = .ok []

/-- One more table is read, unless there is one of its name. -/
theorem readInto_eq_ok {t : StoredTable} (ht : e.Shows db t) {m : Model}
    (hfresh : m.findTable? t.name = none) (foreignKeys : List ForeignKey) :
    e.readInto db (m, foreignKeys) t.name =
      .ok ({ m with tables := m.tables ++ [t.reported] }, foreignKeys) := by
  have hadd : m.addTable t.reported =
      .ok (.done { m with tables := m.tables ++ [t.reported] }) := by
    have hnone : m.findTable? t.reported.name = none := hfresh
    rw [Model.addTable, hnone]
  rw [readInto, ht.columns, ht.foreignKeys]
  simp only [bind, Except.bind, StoredTable.readTable_columnRows ht.coherent, hadd]
  change Except.ok (_, foreignKeys ++ []) = _
  rw [List.append_nil]
  rfl

/-- The tables are read one after the other. -/
theorem foldlM_readInto {ts : List StoredTable} (hts : ∀ t ∈ ts, e.Shows db t) {m : Model}
    (hnames : ((m.tables ++ ts.map StoredTable.reported).map Table.matchKey).Nodup)
    (foreignKeys : List ForeignKey) :
    (ts.map StoredTable.name).foldlM (e.readInto db) (m, foreignKeys) =
      .ok ({ m with tables := m.tables ++ ts.map StoredTable.reported }, foreignKeys) := by
  induction ts generalizing m with
  | nil => simp [pure, Except.pure]
  | cons t ts ih =>
    obtain ⟨ht, hts⟩ := List.forall_mem_cons.1 hts
    have hfresh : m.findTable? t.name = none := by
      rw [Model.findTable?_eq, entryAt_eq_none]
      intro hmem
      rw [List.map_append, List.nodup_append] at hnames
      exact hnames.2.2 _ hmem _ (List.mem_map_of_mem List.mem_cons_self) rfl
    have hrest := @ih hts { m with tables := m.tables ++ [t.reported] } (by simpa using hnames)
    rw [List.map_cons, List.foldlM_cons, readInto_eq_ok ht hfresh]
    refine Eq.trans hrest ?_
    rw [List.append_assoc, List.map_cons, List.singleton_append]

theorem mapM_text_name (names : List String) :
    (names.map fun name => Row.mk [("name", .text name)]).mapM (·.text "name") = .ok names := by
  rw [mapM_eq_ok, List.forall₂_map_left_iff]
  exact List.forall₂_same.2 fun _ _ => rfl

/-- **The model of a database without foreign keys** has its tables that take part, and no joins. -/
theorem exists_introspect {ts : List StoredTable}
    (hlisted : e.ask db .tables = .ok ((Database.mk ts).answer .tables))
    (hts : ∀ t ∈ ts, e.Shows db t) (hnames : (ts.map fun t => foldName t.name).Nodup)
    (huser : ∀ t ∈ ts, StoredTable.isInternalName t.name = false) (f : Inclusion) :
    ∃ m, e.introspect db f = .ok m ∧ m.joins = [] ∧
      m.tables.Perm ((ts.map StoredTable.reported).filter f.includesTable) := by
  have hexact : (ts.map StoredTable.name).Nodup := by
    refine List.Nodup.of_map foldName ?_
    rwa [List.map_map]
  -- the tables in the order of their names, which need not be the one of their creation
  obtain ⟨us, hus, hperm⟩ : ∃ us : List StoredTable,
      (Database.mk ts).userNames = us.map StoredTable.name ∧ us.Perm ts := by
    have hnamed : List.Forall₂ (fun name t => name = t.name) (ts.map StoredTable.name) ts :=
      List.forall₂_map_left_iff.2 (List.forall₂_same.2 fun _ _ => rfl)
    obtain ⟨us, hus, hperm⟩ := List.perm_comp_forall₂ (Database.perm_userNames hexact huser) hnamed
    rw [← List.forall₂_map_right_iff, List.forall₂_eq_eq_eq] at hus
    exact ⟨us, hus, hperm⟩
  let included := us.filter fun t => f.table none none t.name
  have hincluded : (us.map StoredTable.name).filter (f.table none none) =
      included.map StoredTable.name := List.filter_map
  have hshows : ∀ t ∈ included, e.Shows db t := fun t ht =>
    hts t (hperm.mem_iff.1 (List.mem_of_mem_filter ht))
  have hdistinct : (([] ++ included.map StoredTable.reported).map Table.matchKey).Nodup := by
    rw [List.nil_append, List.map_map]
    exact ((hperm.map _).nodup_iff.2 hnames).sublist (List.filter_sublist.map _)
  have htables := @foldlM_readInto _ _ _ _ hshows .empty hdistinct []
  have hread : e.introspect db f =
      .ok (Model.loadForeignKeys { tables := included.map StoredTable.reported } []).model := by
    rw [introspect, hlisted]
    simp only [Database.answer, hus, mapM_text_name, bind, Except.bind, hincluded, htables]
    rfl
  refine ⟨_, hread, rfl, ?_⟩
  change (included.map StoredTable.reported).Perm _
  rw [List.filter_map]
  exact (hperm.filter _).map _

end Engine

end SchemaDrift
