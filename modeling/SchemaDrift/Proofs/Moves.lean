/-
  SchemaDrift/Proofs/Moves.lean
  =============================
  **The changes that lead from one table to another, whatever order they are listed in.**

  Between two columns, two tables or two slots of a model there are only a few things
  to change, and they are listed here: `CellMoves` for a column, `TableMoves` for a
  table, `SlotMoves` for a table that may be missing on either side.  Each is a
  statement about a collection of changes.  Once the collection is put in order of
  execution, the changes run through and lead to a table that matches the target
  (`runSlot_of_moves`).

  The order matters where a column joins or leaves the key.  NULL is excluded before
  the key is set and allowed after it, so that no key column is ever asked to allow
  NULL, and setting the key takes NULL from no column that keeps it
  (`runColumn_keyMove`).
-/
import SchemaDrift.Plan
import SchemaDrift.Proofs.ModelEdit
import SchemaDrift.Proofs.Order

namespace SchemaDrift

/-! ### Tables that match -/

/-- What a plan compares of a column. -/
def Column.shape (c : Column) : SqlType × Bool := (c.type, c.nullable)

/-- Tables between which a plan finds no difference. -/
structure Table.Matches (t t' : Table) : Prop where
  distinct : (t.columns.map Column.matchKey).Nodup
  distinct' : (t'.columns.map Column.matchKey).Nodup
  columns : ∀ key, (t.columnAt key).map Column.shape = (t'.columnAt key).map Column.shape
  key : t.foldedKey = t'.foldedKey

theorem Table.Matches.refl {t : Table} (h : (t.columns.map Column.matchKey).Nodup) :
    t.Matches t := ⟨h, h, fun _ => rfl, rfl⟩

theorem Table.Matches.symm {t t' : Table} (h : t.Matches t') : t'.Matches t :=
  ⟨h.distinct', h.distinct, fun key => (h.columns key).symm, h.key.symm⟩

/-! ### The moves of a column and of a table -/

section Moves

variable (table : String)

def typeMove (name : String) (source target : Column) : List Change :=
  if target.type = source.type then []
  else [.setColumnType table name source.type target.type]

def nullMove (name : String) (source target : Column) : List Change :=
  if target.nullable = source.nullable then []
  else [.setNullability table name target.nullable]

def keyMove (source target : Table) : List Change :=
  if source.foldedKey = target.foldedKey then []
  else [.setPrimaryKey table source.primaryKey target.primaryKey]

/-- The changes that lead from the column under a key to another one, the key of the table
    left aside. -/
inductive CellMoves (key : String) : Option Column → Option Column → List Change → Prop
  | absent : CellMoves key none none []
  | added (c : Column) : CellMoves key none (some c) [.addColumn table c]
  | dropped (c : Column) : CellMoves key (some c) none [.dropColumn table c]
  | kept (name : String) (hname : foldName name = key) (source target : Column) :
      CellMoves key (some source) (some target)
        (typeMove table name source target ++ nullMove table name source target)

/-- The changes that lead from a table to another. -/
structure TableMoves (source target : Table) (cs : List Change) : Prop where
  inTable : ∀ c ∈ cs, c.kind.isInTable = true
  cells : ∀ key, ∃ moves, CellMoves table key (source.columnAt key) (target.columnAt key) moves ∧
    (cs.filter (Change.concerns key)).Perm (moves ++ keyMove table source target)

end Moves

/-- The changes that lead from the table under a key to another. -/
inductive SlotMoves : Option Table → Option Table → List Change → Prop
  | absent : SlotMoves none none []
  | added (t : Table) : SlotMoves none (some t) [.addTable t]
  | dropped (t : Table) : SlotMoves (some t) none [.dropTable t]
  | kept (table : String) {source target : Table} {cs : List Change}
      (h : TableMoves table source target cs) : SlotMoves (some source) (some target) cs

theorem TableMoves.perm {table : String} {source target : Table} {cs ds : List Change}
    (h : TableMoves table source target cs) (hperm : ds.Perm cs) :
    TableMoves table source target ds where
  inTable c hc := h.inTable c (hperm.subset hc)
  cells key := by
    obtain ⟨moves, hmoves, hcells⟩ := h.cells key
    exact ⟨moves, hmoves, (hperm.filter _).trans hcells⟩

theorem SlotMoves.perm {source target : Option Table} {cs ds : List Change}
    (h : SlotMoves source target cs) (hperm : ds.Perm cs) : SlotMoves source target ds := by
  cases h with
  | absent => rw [hperm.eq_nil]; exact .absent
  | added t => rw [List.perm_singleton.1 hperm]; exact .added t
  | dropped t => rw [List.perm_singleton.1 hperm]; exact .dropped t
  | kept table h => exact .kept table (h.perm hperm)

/-! ### Running the moves of a column -/

theorem runColumn_append (cs ds : List Change) (key : String) (found : Option Column) :
    runColumn (cs ++ ds) key found = (runColumn cs key found).bind (runColumn ds key) := by
  rw [runColumn, List.foldlM_append]
  rfl

section Column

variable {table name key : String} {source target c : Column}

theorem runColumn_typeMove (hname : foldName name = key) :
    runColumn (typeMove table name source target) key (some source) =
      some (some { source with type := target.type }) := by
  rw [typeMove]
  split
  next h => rw [h]; rfl
  next => simp [runColumn, Change.editColumn, hname]

theorem runColumn_nullMove (hname : foldName name = key) (hc : c.nullable = source.nullable)
    (hkey : target.nullable = true → c.key = false) :
    runColumn (nullMove table name source target) key (some c) =
      some (some { c with nullable := target.nullable }) := by
  rw [nullMove]
  split
  next h => rw [h, ← hc]; rfl
  next =>
    cases hnull : target.nullable with
    | false => simp [Change.setNullability, runColumn, Change.editColumn, hname]
    | true => simp [Change.setNullability, runColumn, Change.editColumn, hname, hkey hnull]

end Column

/-- Setting the key leaves the flag of the new key, and takes NULL from key columns only. -/
theorem runColumn_keyMove (table : String) (source target : Table) {key : String} {c : Column}
    (hc : c.matchKey = key)
    (h : source.foldedKey = target.foldedKey → (c.key = true ↔ key ∈ target.foldedKey)) :
    ∃ c', runColumn (keyMove table source target) key (some c) = some (some c') ∧
      c'.type = c.type ∧ (c'.key = true ↔ key ∈ target.foldedKey) ∧
      (key ∉ target.foldedKey → c'.nullable = c.nullable) ∧
      (c.nullable = false → c'.nullable = false) := by
  rw [keyMove]
  split
  next hsame => exact ⟨c, rfl, rfl, h hsame, fun _ => rfl, id⟩
  next =>
    refine ⟨Table.markKey target.primaryKey c, rfl, ?_⟩
    have hnamed : namedIn target.primaryKey c.name = true ↔ key ∈ target.foldedKey := by
      rw [namedIn_iff, ← hc]
      rfl
    rw [Table.markKey]
    split
    next hin => simp [Column.asKey, hnamed.1 hin]
    next hout => simp [mt hnamed.2 hout]

section Cell

variable {table key : String} {source target : Table} (hsource : source.Consistent)
  (htarget : target.Consistent)

omit hsource in
include htarget in
theorem runColumn_keyMove_none (h : target.columnAt key = none) :
    runColumn (keyMove table source target) key none = some none := by
  have hnot : key ∉ target.foldedKey := htarget.notMem_key_of_none h
  rw [keyMove]
  split
  next => rfl
  next => simpa [runColumn, Change.editColumn, Table.foldedKey] using hnot

section Source

omit htarget
include hsource

theorem flag_iff_of_same_key {a : Column} (ha : source.columnAt key = some a)
    (hsame : source.foldedKey = target.foldedKey) : a.key = true ↔ key ∈ target.foldedKey := by
  rw [← hsame]
  exact hsource.key_iff ha

/-- A column without NULL: NULL is excluded before the key is set. -/
theorem runColumn_kept_notNull {name : String} (hname : foldName name = key) {a w : Column}
    (ha : source.columnAt key = some a) (hnull : w.nullable = false) {cs : List Change}
    (hperm : cs.Perm (typeMove table name a w ++ nullMove table name a w ++
      keyMove table source target)) (hinOrder : Change.InOrder cs) :
    ∃ c, runColumn cs key (some a) = some (some c) ∧ c.shape = w.shape := by
  have hcs : cs = typeMove table name a w ++ nullMove table name a w ++
      keyMove table source target := by
    refine hinOrder.eq_of_perm hperm ?_
    rw [typeMove, nullMove, keyMove, hnull]
    split_ifs <;> simp [Change.kind, ChangeKind.priority, Change.setNullability]
  have hflag : source.foldedKey = target.foldedKey → (a.key = true ↔ key ∈ target.foldedKey) :=
    flag_iff_of_same_key hsource ha
  have hmatch : a.matchKey = key := keyOf_entryAt ha
  obtain ⟨c, hrun, htype, -, -, hnotNull⟩ :=
    runColumn_keyMove table source target (c := { a with type := w.type, nullable := false })
      hmatch hflag
  have hnulls : runColumn (nullMove table name a w) key (some { a with type := w.type }) =
      some (some { a with type := w.type, nullable := false }) := by
    rw [← hnull]
    exact runColumn_nullMove hname rfl (by simp [hnull])
  refine ⟨c, ?_, by simp [Column.shape, htype, hnotNull rfl, hnull]⟩
  rw [hcs, runColumn_append, runColumn_append, runColumn_typeMove hname, Option.bind_some,
    hnulls]
  exact hrun

end Source

include hsource htarget

/-- A column with NULL: NULL is allowed after the key is set, which leaves the column out. -/
theorem runColumn_kept_null {name : String} (hname : foldName name = key) {a w : Column}
    (ha : source.columnAt key = some a) (hw : target.columnAt key = some w)
    (hnull : w.nullable = true) {cs : List Change}
    (hperm : cs.Perm (typeMove table name a w ++ nullMove table name a w ++
      keyMove table source target)) (hinOrder : Change.InOrder cs) :
    ∃ c, runColumn cs key (some a) = some (some c) ∧ c.shape = w.shape := by
  have hcs : cs = typeMove table name a w ++ keyMove table source target ++
      nullMove table name a w := by
    refine hinOrder.eq_of_perm (hperm.trans ?_) ?_
    · rw [List.append_assoc, List.append_assoc]
      exact List.perm_append_comm.append_left _
    · rw [typeMove, nullMove, keyMove, hnull]
      split_ifs <;> simp [Change.kind, ChangeKind.priority, Change.setNullability]
  have hnot : key ∉ target.foldedKey := htarget.notMem_key hw hnull
  have hflag : source.foldedKey = target.foldedKey → (a.key = true ↔ key ∈ target.foldedKey) :=
    flag_iff_of_same_key hsource ha
  have hmatch : a.matchKey = key := keyOf_entryAt ha
  obtain ⟨c, hrun, htype, hkey, hkept, -⟩ :=
    runColumn_keyMove table source target (c := { a with type := w.type }) hmatch hflag
  have hunflagged : c.key = false := by
    rw [← Bool.not_eq_true, hkey]
    exact hnot
  refine ⟨{ c with nullable := w.nullable }, ?_, by simp [Column.shape, htype]⟩
  rw [hcs, runColumn_append, runColumn_append, runColumn_typeMove hname, Option.bind_some,
    hrun, Option.bind_some]
  exact runColumn_nullMove hname (hkept hnot) fun _ => hunflagged

/-- **The moves of a column, in order of execution, lead to the shape of the target.** -/
theorem runColumn_of_moves {moves cs : List Change}
    (h : CellMoves table key (source.columnAt key) (target.columnAt key) moves)
    (hperm : cs.Perm (moves ++ keyMove table source target)) (hinOrder : Change.InOrder cs) :
    ∃ found, runColumn cs key (source.columnAt key) = some found ∧
      found.map Column.shape = (target.columnAt key).map Column.shape := by
  generalize hs : source.columnAt key = s at h ⊢
  generalize ht : target.columnAt key = t at h ⊢
  cases h with
  | absent =>
    have hcs : cs = keyMove table source target := by
      refine hinOrder.eq_of_perm hperm ?_
      rw [keyMove]
      split <;> simp
    refine ⟨none, ?_, rfl⟩
    rw [hcs, runColumn_keyMove_none htarget ht]
  | dropped c =>
    have hcs : cs = .dropColumn table c :: keyMove table source target := by
      refine hinOrder.eq_of_perm hperm ?_
      rw [keyMove]
      split <;> simp [Change.kind, ChangeKind.priority]
    have hdrop : runColumn [.dropColumn table c] key (some c) = some none := by
      simp [runColumn, Change.editColumn, keyOf_entryAt hs]
    refine ⟨none, ?_, rfl⟩
    rw [hcs, ← List.singleton_append, runColumn_append, hdrop]
    exact runColumn_keyMove_none htarget ht
  | added c =>
    have hcs : cs = .addColumn table c :: keyMove table source target := by
      refine hinOrder.eq_of_perm hperm ?_
      rw [keyMove]
      split <;> simp [Change.kind, ChangeKind.priority]
    have hadd : runColumn [.addColumn table c] key none = some (some c) := by
      simp [runColumn, Change.editColumn, keyOf_entryAt ht]
    obtain ⟨c', hrun, htype, -, hkept, hnotNull⟩ :=
      runColumn_keyMove table source target (keyOf_entryAt ht) fun _ => htarget.key_iff ht
    have hnullable : c'.nullable = c.nullable := by
      cases hnull : c.nullable with
      | false => exact hnotNull hnull
      | true => exact (hkept (htarget.notMem_key ht hnull)).trans hnull
    refine ⟨some c', ?_, by simp [Column.shape, htype, hnullable]⟩
    rw [hcs, ← List.singleton_append, runColumn_append, hadd]
    exact hrun
  | kept name hname a w =>
    have hrun : ∃ c, runColumn cs key (some a) = some (some c) ∧ c.shape = w.shape := by
      cases hnull : w.nullable with
      | false => exact runColumn_kept_notNull hsource hname hs hnull hperm hinOrder
      | true => exact runColumn_kept_null hsource htarget hname hs ht hnull hperm hinOrder
    obtain ⟨c, hc, hshape⟩ := hrun
    exact ⟨some c, hc, congrArg some hshape⟩

end Cell

/-! ### Running the moves of a key -/

theorem runKey_append (cs ds : List Change) (key : List String) :
    runKey (cs ++ ds) key = runKey ds (runKey cs key) := List.foldl_append

theorem runKey_eq_self {cs : List Change} {key : List String}
    (h : ∀ c ∈ cs, c.editKey key = key) : runKey cs key = key := by
  induction cs with
  | nil => rfl
  | cons c cs ih =>
    obtain ⟨hc, hcs⟩ := List.forall_mem_cons.1 h
    rw [runKey, List.foldl_cons, hc]
    exact ih hcs

/-- A run of which some change sets the key and no other touches it ends with this key. -/
theorem runKey_eq_of_mem {cs : List Change} {new : List String}
    (h : ∀ c ∈ cs, (∀ key, c.editKey key = key) ∨ ∀ key, c.editKey key = new)
    (hset : ∃ c ∈ cs, ∀ key, c.editKey key = new) (key : List String) : runKey cs key = new := by
  induction cs generalizing key with
  | nil =>
    obtain ⟨c, hc, _⟩ := hset
    cases hc
  | cons c cs ih =>
    obtain ⟨hhead, htail⟩ := List.forall_mem_cons.1 h
    change runKey cs (c.editKey key) = new
    by_cases hrest : ∃ c ∈ cs, ∀ key, c.editKey key = new
    · exact ih htail hrest _
    · obtain ⟨d, hd, hdset⟩ := hset
      rcases List.mem_cons.1 hd with rfl | hd
      · rw [hdset]
        refine runKey_eq_self fun e he => ?_
        rcases htail e he with hkeeps | hsets
        · exact hkeeps new
        · exact hsets new
      · exact absurd ⟨d, hd, hdset⟩ hrest

theorem exists_concerns {c : Change} (hc : c.kind.isInTable = true) :
    ∃ key, c.concerns key = true := by
  cases c with
  | addColumn table column => exact ⟨column.matchKey, beq_self_eq_true _⟩
  | dropColumn table column => exact ⟨column.matchKey, beq_self_eq_true _⟩
  | setPrimaryKey table old new => exact ⟨"", rfl⟩
  | setColumnType table column old new => exact ⟨foldName column, beq_self_eq_true _⟩
  | setNotNull table column => exact ⟨foldName column, beq_self_eq_true _⟩
  | setAllowNull table column => exact ⟨foldName column, beq_self_eq_true _⟩
  | addTable table => cases hc
  | dropTable table => cases hc
  | addJoin join referencing => cases hc
  | dropJoin join referencing => cases hc

section TableRun

variable {table : String} {source target : Table} {cs : List Change}

theorem TableMoves.mem (h : TableMoves table source target cs) {c : Change} (hc : c ∈ cs) :
    (∃ key moves, CellMoves table key (source.columnAt key) (target.columnAt key) moves ∧
      c ∈ moves) ∨ c ∈ keyMove table source target := by
  obtain ⟨key, hkey⟩ := exists_concerns (h.inTable c hc)
  obtain ⟨moves, hmoves, hperm⟩ := h.cells key
  have hmem : c ∈ moves ++ keyMove table source target :=
    hperm.subset (List.mem_filter.2 ⟨hc, hkey⟩)
  rcases List.mem_append.1 hmem with hcell | hset
  · exact .inl ⟨key, moves, hmoves, hcell⟩
  · exact .inr hset

theorem mem_kept {name : String} {a w : Column} {c : Change} :
    c ∈ typeMove table name a w ++ nullMove table name a w ↔
      (c = .setColumnType table name a.type w.type ∧ w.type ≠ a.type) ∨
        (c = .setNullability table name w.nullable ∧ w.nullable ≠ a.nullable) := by
  rw [typeMove, nullMove, List.mem_append]
  split <;> split <;> simp [*]

theorem editKey_of_mem_kept {name : String} {a w : Column} {c : Change}
    (h : c ∈ typeMove table name a w ++ nullMove table name a w) (key : List String) :
    c.editKey key = key := by
  rcases mem_kept.1 h with ⟨rfl, -⟩ | ⟨rfl, -⟩
  · rfl
  · rw [Change.setNullability]
    split <;> rfl

/-- Where the key stays, the moves of a column leave the key list as it is. -/
theorem editKey_of_mem_cell (hsource : source.Consistent) (htarget : target.Consistent)
    (hsame : source.foldedKey = target.foldedKey) {key : String} {moves : List Change}
    (h : CellMoves table key (source.columnAt key) (target.columnAt key) moves) {c : Change}
    (hc : c ∈ moves) : c.editKey source.primaryKey = source.primaryKey := by
  generalize hs : source.columnAt key = s at h
  generalize ht : target.columnAt key = t at h
  cases h with
  | absent => cases hc
  | added column =>
    have hnot : key ∉ target.foldedKey := by
      rw [← hsame]
      exact hsource.notMem_key_of_none hs
    have hflag : column.key = false := by
      rw [← Bool.not_eq_true, htarget.key_iff ht]
      exact hnot
    rw [List.mem_singleton.1 hc]
    simp [Change.editKey, hflag]
  | dropped column =>
    have hnot : key ∉ source.foldedKey := by
      rw [hsame]
      exact htarget.notMem_key_of_none ht
    have hmatch : column.matchKey = key := keyOf_entryAt hs
    rw [List.mem_singleton.1 hc]
    refine List.filter_eq_self.2 fun entry hentry => ?_
    have hother : foldName entry ≠ foldName column.name := by
      intro heq
      exact hnot (List.mem_map.2 ⟨entry, hentry, heq.trans hmatch⟩)
    simpa [sameName] using hother
  | kept name hname a w => exact editKey_of_mem_kept hc _

/-- A move of a column that comes after the key is set leaves every key list as it is. -/
theorem editKey_of_late {key : String} {s t : Option Column} {moves : List Change}
    (h : CellMoves table key s t moves) {c : Change} (hc : c ∈ moves)
    (hrank : ChangeKind.setPrimaryKey.priority ≤ c.kind.priority) (names : List String) :
    c.editKey names = names := by
  cases h with
  | absent => cases hc
  | added column =>
    rw [List.mem_singleton.1 hc] at hrank
    simp [Change.kind, ChangeKind.priority] at hrank
  | dropped column =>
    rw [List.mem_singleton.1 hc] at hrank
    simp [Change.kind, ChangeKind.priority] at hrank
  | kept name hname a w => exact editKey_of_mem_kept hc _

theorem runKey_of_moves (hsource : source.Consistent) (htarget : target.Consistent)
    (h : TableMoves table source target cs) (hinOrder : Change.InOrder cs) :
    (runKey cs source.primaryKey).map foldName = target.foldedKey := by
  by_cases hsame : source.foldedKey = target.foldedKey
  · have hkeeps : ∀ c ∈ cs, c.editKey source.primaryKey = source.primaryKey := by
      intro c hc
      rcases h.mem hc with ⟨key, moves, hmoves, hcell⟩ | hset
      · exact editKey_of_mem_cell hsource htarget hsame hmoves hcell
      · simp [keyMove, hsame] at hset
    rw [runKey_eq_self hkeeps]
    exact hsame
  · -- nothing that comes after the key is set changes it again
    have hset : .setPrimaryKey table source.primaryKey target.primaryKey ∈ cs := by
      obtain ⟨moves, _, hperm⟩ := h.cells ""
      have hmem : Change.setPrimaryKey table source.primaryKey target.primaryKey ∈
          cs.filter (Change.concerns "") := by
        refine hperm.mem_iff.2 (List.mem_append_right _ ?_)
        simp [keyMove, hsame]
      exact List.mem_of_mem_filter hmem
    have hlate : ∀ c ∈ cs.filter (fun c => !decide (c.kind.priority ≤ 79)),
        (∀ key, c.editKey key = key) ∨ ∀ key, c.editKey key = target.primaryKey := by
      intro c hc
      obtain ⟨hmem, hrank⟩ := List.mem_filter.1 hc
      have hlate : 79 < c.kind.priority := by simpa using hrank
      rcases h.mem hmem with ⟨key, moves, hmoves, hcell⟩ | hown
      · exact .inl fun names => editKey_of_late hmoves hcell hlate names
      · right
        simp only [keyMove, if_neg hsame, List.mem_singleton] at hown
        subst hown
        exact fun _ => rfl
    have hsetLate : ∃ c ∈ cs.filter (fun c => !decide (c.kind.priority ≤ 79)),
        ∀ key, c.editKey key = target.primaryKey :=
      ⟨_, List.mem_filter.2 ⟨hset, rfl⟩, fun _ => rfl⟩
    rw [hinOrder.eq_append 79, runKey_append, runKey_eq_of_mem hlate hsetLate]
    rfl

/-- **The moves of a table, in order of execution, lead to a table that matches the target.** -/
theorem runTable_of_moves (hsource : source.Consistent) (htarget : target.Consistent)
    (h : TableMoves table source target cs) (hinOrder : Change.InOrder cs) :
    ∃ t, runTable cs source = some t ∧ t.Matches target := by
  have hcolumns : ∀ key, ∃ found, runColumn cs key (source.columnAt key) = some found ∧
      found.map Column.shape = (target.columnAt key).map Column.shape := by
    intro key
    obtain ⟨moves, hmoves, hperm⟩ := h.cells key
    rw [runColumn_filter]
    exact runColumn_of_moves hsource htarget hmoves hperm (hinOrder.filter _)
  choose found hrun hshape using hcolumns
  obtain ⟨t, ht, -, hdistinct, hfound, hkey⟩ :=
    runTable_of_columns h.inTable hsource.columns_distinct hrun
  refine ⟨t, ht, hdistinct, htarget.columns_distinct, fun key => ?_, ?_⟩
  · rw [hfound, hshape]
  · rw [Table.foldedKey, hkey]
    exact runKey_of_moves hsource htarget h hinOrder

/-! ### Running the moves of a slot -/

theorem runSlot_of_inTable (h : ∀ c ∈ cs, c.kind.isInTable = true) (t : Table) :
    runSlot cs (some t) = (runTable cs t).map some := by
  induction cs generalizing t with
  | nil => rfl
  | cons c cs ih =>
    obtain ⟨hc, hcs⟩ := List.forall_mem_cons.1 h
    change (c.editSlot (some t)).bind _ = ((c.editTable t).bind _).map some
    rw [editSlot_inTable hc, Option.bind_some]
    cases c.editTable t with
    | none => rfl
    | some t' => exact ih hcs t'

end TableRun

/-- **The moves of a slot, in order of execution, lead to what matches the target.** -/
theorem runSlot_of_moves {source target : Option Table} {cs : List Change}
    (hsource : ∀ t, source = some t → t.Consistent) (htarget : ∀ t, target = some t → t.Consistent)
    (h : SlotMoves source target cs) (hinOrder : Change.InOrder cs) :
    ∃ slot, runSlot cs source = some slot ∧ Option.Rel Table.Matches slot target := by
  cases h with
  | absent => exact ⟨none, rfl, .none⟩
  | added t => exact ⟨some t, rfl, .some (.refl (htarget t rfl).columns_distinct)⟩
  | dropped t => exact ⟨none, rfl, .none⟩
  | kept table h =>
    obtain ⟨t, ht, hmatches⟩ :=
      runTable_of_moves (hsource _ rfl) (htarget _ rfl) h hinOrder
    refine ⟨some t, ?_, .some hmatches⟩
    rw [runSlot_of_inTable h.inTable, ht, Option.map_some]

end SchemaDrift
