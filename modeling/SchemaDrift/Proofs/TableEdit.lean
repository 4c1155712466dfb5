/-
  SchemaDrift/Proofs/TableEdit.lean
  =================================
  **What the changes inside a table do, column by column.**

  Six kinds of change stay inside one table.  `Change.editTable` is what such a change
  does to its table, `none` where it refuses.  Each of them acts on every column by
  itself: what becomes of the column under a key is `Change.editColumn`, which looks at
  that column and at nothing else, and a change refuses the table exactly where it
  refuses some column.  The key list goes its own way, `Change.editKey`.

  So a run of changes need not be followed on the table.  `runTable_of_columns` says
  that it succeeds when it succeeds under every key, and that the columns and the key
  list of the outcome are those of the separate runs.  Under one key only the few
  changes that concern it matter (`runColumn_filter`).
-/
import SchemaDrift.Change.Apply
import SchemaDrift.Proofs.WellFormed

namespace SchemaDrift

/-- Whether changes of a kind stay inside one table that is there before and after. -/
def ChangeKind.isInTable : ChangeKind → Bool
  | addColumn | dropColumn | setPrimaryKey | setColumnType | setNotNull | setAllowNull => true
  | addTable | dropTable | addJoin | dropJoin => false

namespace Change

theorem isInTable_dual (c : Change) : c.dual.kind.isInTable = c.kind.isInTable := by
  cases c <;> rfl

def editTable (c : Change) (t : Table) : Option Table :=
  match c with
  | addColumn _ column =>
    if (t.findColumn? column.name).isSome then none
    else some
      { t with
        columns := t.columns ++ [column]
        primaryKey := if column.key then t.primaryKey ++ [column.name] else t.primaryKey }
  | dropColumn _ column => (t.findColumn? column.name).map fun _ => t.dropColumn column.name
  | setPrimaryKey _ _ new =>
    if new.all fun name => (t.findColumn? name).isSome then some (t.setPrimaryKey new) else none
  | setColumnType _ column _ new =>
    (t.findColumn? column).map fun _ => t.modifyColumn column fun c => { c with type := new }
  | setNotNull _ column =>
    (t.findColumn? column).map fun _ => t.modifyColumn column fun c => { c with nullable := false }
  | setAllowNull _ column =>
    (t.findColumn? column).bind fun found =>
      if found.key then none
      else some (t.modifyColumn column fun c => { c with nullable := true })
  | addTable _ | dropTable _ | addJoin _ _ | dropJoin _ _ => none

/-- What a change makes of the column under a key; the inner `none` is a column that is not
    there, the outer one a refusal. -/
def editColumn (c : Change) (key : String) (found : Option Column) : Option (Option Column) :=
  match c with
  | addColumn _ column =>
    if column.matchKey = key then (if found.isSome then none else some (some column))
    else some found
  | dropColumn _ column =>
    if column.matchKey = key then found.map fun _ => none else some found
  | setPrimaryKey _ _ new =>
    match found with
    | some column => some (some (Table.markKey new column))
    | none => if key ∈ new.map foldName then none else some none
  | setColumnType _ column _ new =>
    if foldName column = key then found.map fun c => some { c with type := new } else some found
  | setNotNull _ column =>
    if foldName column = key then found.map fun c => some { c with nullable := false }
    else some found
  | setAllowNull _ column =>
    if foldName column = key then
      found.bind fun c => if c.key then none else some (some { c with nullable := true })
    else some found
  | addTable _ | dropTable _ | addJoin _ _ | dropJoin _ _ => some found

def editKey (c : Change) (key : List String) : List String :=
  match c with
  | addColumn _ column => if column.key then key ++ [column.name] else key
  | dropColumn _ column => key.filter fun entry => !sameName entry column.name
  | setPrimaryKey _ _ new => new
  | _ => key

end Change

/-! ### One change -/

theorem matchKey_markKey (key : List String) (c : Column) :
    Column.matchKey (Table.markKey key c) = Column.matchKey c := by
  rw [Table.markKey]
  split <;> rfl

theorem name_editTable {c : Change} {t t' : Table} (h : c.editTable t = some t') :
    t'.name = t.name := by
  cases c with
  | addColumn table column =>
    simp only [Change.editTable] at h
    split at h
    · cases h
    · cases h
      rfl
  | dropColumn table column =>
    obtain ⟨_, _, rfl⟩ := Option.map_eq_some_iff.1 h
    rfl
  | setPrimaryKey table old new =>
    simp only [Change.editTable] at h
    split at h
    · cases h
      rfl
    · cases h
  | setColumnType table name old new =>
    obtain ⟨_, _, rfl⟩ := Option.map_eq_some_iff.1 h
    rfl
  | setNotNull table name =>
    obtain ⟨_, _, rfl⟩ := Option.map_eq_some_iff.1 h
    rfl
  | setAllowNull table name =>
    obtain ⟨found, _, hedit⟩ := Option.bind_eq_some_iff.1 h
    split at hedit
    · cases hedit
    · cases hedit
      rfl
  | addTable table => cases h
  | dropTable table => cases h
  | addJoin join referencing => cases h
  | dropJoin join referencing => cases h

/-- A change that the table takes is refused by none of its columns. -/
theorem exists_editColumn {c : Change} {t t' : Table} (h : c.editTable t = some t')
    (key : String) : ∃ next, c.editColumn key (t.columnAt key) = some next := by
  have hthere : ∀ {name : String} {found : Column}, t.findColumn? name = some found →
      foldName name = key → t.columnAt key = some found := by
    rintro name found hfound rfl
    exact hfound
  cases c with
  | addColumn table column =>
    simp only [Change.editTable] at h
    split at h
    next => cases h
    next hfree =>
      simp only [Change.editColumn]
      split
      next hkey =>
        subst hkey
        exact ⟨some column, if_neg hfree⟩
      next => exact ⟨_, rfl⟩
  | dropColumn table column =>
    obtain ⟨found, hfound, _⟩ := Option.map_eq_some_iff.1 h
    simp only [Change.editColumn]
    split
    next hkey => exact ⟨none, by rw [hthere hfound hkey, Option.map_some]⟩
    next => exact ⟨_, rfl⟩
  | setPrimaryKey table old new =>
    simp only [Change.editTable] at h
    split at h
    next hall =>
      simp only [Change.editColumn]
      cases hfound : t.columnAt key with
      | some column => exact ⟨_, rfl⟩
      | none =>
        refine ⟨none, if_neg ?_⟩
        intro hmem
        obtain ⟨name, hname, rfl⟩ := List.mem_map.1 hmem
        have hsome := List.all_eq_true.1 hall name hname
        rw [Table.findColumn?_eq, hfound] at hsome
        cases hsome
    next => cases h
  | setColumnType table name old new =>
    obtain ⟨found, hfound, _⟩ := Option.map_eq_some_iff.1 h
    simp only [Change.editColumn]
    split
    next hkey => exact ⟨_, by rw [hthere hfound hkey, Option.map_some]⟩
    next => exact ⟨_, rfl⟩
  | setNotNull table name =>
    obtain ⟨found, hfound, _⟩ := Option.map_eq_some_iff.1 h
    simp only [Change.editColumn]
    split
    next hkey => exact ⟨_, by rw [hthere hfound hkey, Option.map_some]⟩
    next => exact ⟨_, rfl⟩
  | setAllowNull table name =>
    obtain ⟨found, hfound, hedit⟩ := Option.bind_eq_some_iff.1 h
    split at hedit
    next => cases hedit
    next hkept =>
      simp only [Change.editColumn]
      split
      next hkey =>
        rw [hthere hfound hkey, Option.bind_some, if_neg hkept]
        exact ⟨_, rfl⟩
      next => exact ⟨_, rfl⟩
  | addTable table => cases h
  | dropTable table => cases h
  | addJoin join referencing => cases h
  | dropJoin join referencing => cases h

/-- A change that takes a table with distinct columns to one with distinct columns, a given
    column under each key, and its key list edited. -/
structure EditsTo (c : Change) (t : Table) (columnAt : String → Option Column) (t' : Table) :
    Prop where
  edit : c.editTable t = some t'
  name : t'.name = t.name
  distinct : (t'.columns.map Column.matchKey).Nodup
  columns : ∀ key, t'.columnAt key = columnAt key
  key : t'.primaryKey = c.editKey t.primaryKey

section OneChange

variable {t : Table} {result : String → Option Column}
  (hdistinct : (t.columns.map Column.matchKey).Nodup)

include hdistinct

theorem editsTo_addColumn {table : String} {column : Column}
    (h : ∀ key, (Change.addColumn table column).editColumn key (t.columnAt key) =
      some (result key)) :
    ∃ t', EditsTo (.addColumn table column) t result t' := by
  simp only [Change.editColumn] at h
  have hfree : t.columnAt column.matchKey = none := by
    have hown := h column.matchKey
    rw [if_pos rfl] at hown
    cases hfound : t.columnAt column.matchKey with
    | none => rfl
    | some found => simp [hfound] at hown
  have hnot : ¬ (t.findColumn? column.name).isSome = true := by
    rw [Table.findColumn?_eq]
    change ¬ (t.columnAt column.matchKey).isSome = true
    simp [hfree]
  refine ⟨_, ⟨if_neg hnot, rfl, nodup_append_singleton hdistinct hfree, fun key => ?_, rfl⟩⟩
  have hkey := h key
  change entryAt _ (t.columns ++ [column]) key = _
  rw [entryAt_append_singleton hfree]
  by_cases heq : column.matchKey = key
  · subst heq
    rw [if_pos rfl, hfree] at hkey
    rw [if_pos rfl]
    simpa using hkey
  · rw [if_neg heq] at hkey ⊢
    exact Option.some.inj hkey

theorem editsTo_dropColumn {table : String} {column : Column}
    (h : ∀ key, (Change.dropColumn table column).editColumn key (t.columnAt key) =
      some (result key)) :
    ∃ t', EditsTo (.dropColumn table column) t result t' := by
  simp only [Change.editColumn] at h
  obtain ⟨found, hfound⟩ : ∃ found, t.columnAt column.matchKey = some found := by
    have hown := h column.matchKey
    rw [if_pos rfl] at hown
    obtain ⟨found, hfound, _⟩ := Option.map_eq_some_iff.1 hown
    exact ⟨found, hfound⟩
  have hedit : (Change.dropColumn table column).editTable t = some (t.dropColumn column.name) := by
    rw [Change.editTable, Table.findColumn?_eq]
    change (t.columnAt column.matchKey).map _ = _
    rw [hfound, Option.map_some]
  refine ⟨_, ⟨hedit, rfl, nodup_eraseP hdistinct _, fun key => ?_, rfl⟩⟩
  have hkey := h key
  change entryAt _ (t.columns.eraseP fun c => c.matchKey == column.matchKey) key = _
  rw [entryAt_eraseP hdistinct]
  by_cases heq : column.matchKey = key
  · subst heq
    rw [if_pos rfl, hfound] at hkey
    rw [if_pos rfl]
    exact Option.some.inj hkey
  · rw [if_neg heq] at hkey ⊢
    exact Option.some.inj hkey

theorem editsTo_setPrimaryKey {table : String} {old new : List String}
    (h : ∀ key, (Change.setPrimaryKey table old new).editColumn key (t.columnAt key) =
      some (result key)) :
    ∃ t', EditsTo (.setPrimaryKey table old new) t result t' := by
  have hall : (new.all fun name => (t.findColumn? name).isSome) = true := by
    refine List.all_eq_true.2 fun name hname => ?_
    have hkey := h (foldName name)
    rw [Table.findColumn?_eq]
    cases hfound : t.columnAt (foldName name) with
    | some column => rfl
    | none => simp [hfound, Change.editColumn, List.mem_map_of_mem hname] at hkey
  have hdistinct' : ((t.columns.map (Table.markKey new)).map Column.matchKey).Nodup := by
    rw [List.map_map]
    simpa only [Function.comp_def, matchKey_markKey] using hdistinct
  refine ⟨_, ⟨if_pos hall, rfl, hdistinct', fun key => ?_, rfl⟩⟩
  have hkey := h key
  change entryAt _ (t.columns.map (Table.markKey new)) key = _
  rw [entryAt_map (matchKey_markKey new)]
  cases hfound : t.columnAt key with
  | some column => simpa [hfound, Change.editColumn] using hkey
  | none =>
    rw [hfound] at hkey
    simp only [Change.editColumn] at hkey
    split at hkey
    · cases hkey
    · simpa [hfound] using hkey

/-- The changes of one column: a column that is there and not refused is changed in place. -/
theorem editsTo_inPlace {c : Change} (name : String) (refuses : Column → Bool)
    (change : Column → Column) (hname : ∀ column, (change column).name = column.name)
    (hcolumn : ∀ key found, c.editColumn key found =
      if foldName name = key then
        found.bind fun x => if refuses x then none else some (some (change x))
      else some found)
    (htable : c.editTable t = (t.findColumn? name).bind fun x =>
      if refuses x then none else some (t.modifyColumn name change))
    (hlist : c.editKey t.primaryKey = t.primaryKey)
    (h : ∀ key, c.editColumn key (t.columnAt key) = some (result key)) :
    ∃ t', EditsTo c t result t' := by
  have hmatch : ∀ column, Column.matchKey column = foldName name →
      Column.matchKey (change column) = foldName name := by
    intro column hkey
    rw [Column.matchKey, hname]
    exact hkey
  simp only [hcolumn] at h
  obtain ⟨found, hfound, hkept, hresult⟩ : ∃ found, t.columnAt (foldName name) = some found ∧
      ¬ refuses found = true ∧ result (foldName name) = some (change found) := by
    have hown := h (foldName name)
    rw [if_pos rfl] at hown
    obtain ⟨found, hfound, hedit⟩ := Option.bind_eq_some_iff.1 hown
    split at hedit
    next => cases hedit
    next hkept => exact ⟨found, hfound, hkept, (Option.some.inj hedit).symm⟩
  have hedit : c.editTable t = some (t.modifyColumn name change) := by
    rw [htable, Table.findColumn?_eq, hfound, Option.bind_some, if_neg hkept]
  refine ⟨_, ⟨hedit, rfl, ?_, fun key => ?_, hlist.symm⟩⟩
  · change ((modifyFirst (fun c => c.matchKey == foldName name) change t.columns).map _).Nodup
    rw [map_keyOf_modifyFirst hmatch]
    exact hdistinct
  · change entryAt _ (modifyFirst (fun c => c.matchKey == foldName name) change t.columns) key = _
    rw [entryAt_modifyFirst hmatch]
    by_cases heq : foldName name = key
    · subst heq
      rw [if_pos rfl, hresult]
      change (t.columnAt (foldName name)).map change = _
      rw [hfound, Option.map_some]
    · have hkey := h key
      rw [if_neg heq] at hkey ⊢
      exact Option.some.inj hkey

/-- A change inside a table that no column refuses takes the table to its columns edited. -/
theorem exists_editsTo {c : Change} (hc : c.kind.isInTable = true)
    (h : ∀ key, c.editColumn key (t.columnAt key) = some (result key)) :
    ∃ t', EditsTo c t result t' := by
  cases c with
  | addColumn table column => exact editsTo_addColumn hdistinct h
  | dropColumn table column => exact editsTo_dropColumn hdistinct h
  | setPrimaryKey table old new => exact editsTo_setPrimaryKey hdistinct h
  | setColumnType table name old new =>
    refine editsTo_inPlace hdistinct name (fun _ => false) (fun c => { c with type := new })
      (fun _ => rfl) (fun key found => ?_) ?_ rfl h
    · cases found <;> rfl
    · rw [Change.editTable]
      cases t.findColumn? name <;> rfl
  | setNotNull table name =>
    refine editsTo_inPlace hdistinct name (fun _ => false) (fun c => { c with nullable := false })
      (fun _ => rfl) (fun key found => ?_) ?_ rfl h
    · cases found <;> rfl
    · rw [Change.editTable]
      cases t.findColumn? name <;> rfl
  | setAllowNull table name =>
    exact editsTo_inPlace hdistinct name Column.key (fun c => { c with nullable := true })
      (fun _ => rfl) (fun key found => rfl) rfl rfl h
  | addTable table => cases hc
  | dropTable table => cases hc
  | addJoin join referencing => cases hc
  | dropJoin join referencing => cases hc

/-- A change that the table takes edits its columns. -/
theorem exists_editsTo_of_editTable {c : Change} (hc : c.kind.isInTable = true) {t' : Table}
    (h : c.editTable t = some t') : ∃ result : String → Option Column,
      (∀ key, c.editColumn key (t.columnAt key) = some (result key)) ∧ EditsTo c t result t' := by
  choose result hresult using exists_editColumn h
  obtain ⟨edited, hedits⟩ := exists_editsTo hdistinct hc hresult
  obtain rfl : t' = edited := Option.some.inj (h.symm.trans hedits.edit)
  exact ⟨result, hresult, hedits⟩

end OneChange

/-! ### A run of changes -/

def runTable (cs : List Change) (t : Table) : Option Table := cs.foldlM (fun t c => c.editTable t) t

/-- What changes make of the column under a key. -/
def runColumn (cs : List Change) (key : String) (found : Option Column) : Option (Option Column) :=
  cs.foldlM (fun found c => c.editColumn key found) found

def runKey (cs : List Change) (key : List String) : List String :=
  cs.foldl (fun key c => c.editKey key) key

/-- **A run inside a table is a run under every key.**  If no column stops the changes, the table
    does not, and its columns afterwards are those that the separate runs end with. -/
theorem runTable_of_columns {cs : List Change} (hcs : ∀ c ∈ cs, c.kind.isInTable = true) {t : Table}
    (hdistinct : (t.columns.map Column.matchKey).Nodup) {result : String → Option Column}
    (h : ∀ key, runColumn cs key (t.columnAt key) = some (result key)) :
    ∃ t', runTable cs t = some t' ∧ t'.name = t.name ∧
      (t'.columns.map Column.matchKey).Nodup ∧ (∀ key, t'.columnAt key = result key) ∧
      t'.primaryKey = runKey cs t.primaryKey := by
  induction cs generalizing t with
  | nil => exact ⟨t, rfl, rfl, hdistinct, fun key => Option.some.inj (h key), rfl⟩
  | cons c cs ih =>
    have hstep : ∀ key, ∃ next, c.editColumn key (t.columnAt key) = some next ∧
        runColumn cs key next = some (result key) := by
      intro key
      exact Option.bind_eq_some_iff.1 (h key)
    choose next hnext hrest using hstep
    obtain ⟨t', ht'⟩ := exists_editsTo hdistinct (hcs c List.mem_cons_self) hnext
    have hrest' : ∀ key, runColumn cs key (t'.columnAt key) = some (result key) := by
      intro key
      rw [ht'.columns, hrest]
    obtain ⟨t'', hrun, hname, hdistinct'', hcolumns, hkey⟩ :=
      ih (fun b hb => hcs b (List.mem_cons_of_mem c hb)) ht'.distinct hrest'
    refine ⟨t'', ?_, hname.trans ht'.name, hdistinct'', hcolumns, ?_⟩
    · change (c.editTable t).bind _ = _
      rw [ht'.edit, Option.bind_some]
      exact hrun
    · rw [hkey, ht'.key]
      rfl

/-- Whether a change can make a difference to the column under a key. -/
def Change.concerns (key : String) : Change → Bool
  | addColumn _ column | dropColumn _ column => column.matchKey == key
  | setColumnType _ column _ _ | setNotNull _ column | setAllowNull _ column =>
    foldName column == key
  | setPrimaryKey _ _ _ => true
  | addTable _ | dropTable _ | addJoin _ _ | dropJoin _ _ => false

@[simp] theorem Change.concerns_dual (key : String) (c : Change) :
    c.dual.concerns key = c.concerns key := by cases c <;> rfl

theorem editColumn_of_not_concerns {key : String} {c : Change} (h : c.concerns key = false)
    (found : Option Column) : c.editColumn key found = some found := by
  cases c <;> simp_all [Change.concerns, Change.editColumn]

/-- The changes that do not concern a key may be left out of its run. -/
theorem runColumn_filter (cs : List Change) (key : String) (found : Option Column) :
    runColumn cs key found = runColumn (cs.filter (Change.concerns key)) key found := by
  induction cs generalizing found with
  | nil => rfl
  | cons c cs ih =>
    by_cases hc : c.concerns key = true
    · rw [List.filter_cons_of_pos hc]
      change (c.editColumn key found).bind _ = (c.editColumn key found).bind _
      exact congrArg _ (funext ih)
    · rw [List.filter_cons_of_neg hc, ← ih]
      change (c.editColumn key found).bind _ = _
      rw [editColumn_of_not_concerns (Bool.not_eq_true _ ▸ hc), Option.bind_some]
      rfl

end SchemaDrift
