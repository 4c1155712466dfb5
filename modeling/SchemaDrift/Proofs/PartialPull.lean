/-
  SchemaDrift/Proofs/PartialPull.lean
  ===================================
  **Pulling a plan that leaves something out.**

  A plan may leave primary keys as they are, and may leave out joins.  Joins that are
  not added cannot be missed: whatever comes later asks only that tables and columns are
  there, or are not.  Keys can, since a key column is never allowed NULL.  Where the
  imported model allows NULL in a column that the key of the original one holds, the
  plan asks for just this, and without the change of the key it is refused.

  Nothing else is refused: `pull_refusals`.  Under each key the changes of a table without
  its key run in any order (`exists_runColumn_of_kept`), and the whole runs in the three
  phases in which every plan does (`exists_run_of_kept`).  The changes that are refused
  are refused throughout, since no other change of the pull takes their columns away
  (`HoldsKeys.apply`).
-/
import SchemaDrift.Proofs.Convergence

namespace SchemaDrift

/-! ### Tables whose key is left alone -/

/-- The changes that lead from a table to another, those of the key left out. -/
structure ColumnMoves (table : String) (source target : Table) (cs : List Change) : Prop where
  inTable : ∀ c ∈ cs, c.kind.isInTable = true
  cells : ∀ key, ∃ moves, CellMoves table key (source.columnAt key) (target.columnAt key) moves ∧
    (cs.filter (Change.concerns key)).Perm moves

theorem ColumnMoves.perm {table : String} {source target : Table} {cs ds : List Change}
    (h : ColumnMoves table source target cs) (hperm : ds.Perm cs) :
    ColumnMoves table source target ds where
  inTable c hc := h.inTable c (hperm.subset hc)
  cells key := by
    obtain ⟨moves, hmoves, hcells⟩ := h.cells key
    exact ⟨moves, hmoves, (hperm.filter _).trans hcells⟩

theorem isInPlace_of_mem_kept {table name : String} {a w : Column} {c : Change}
    (h : c ∈ typeMove table name a w ++ nullMove table name a w) : c.kind.isInPlace = true := by
  rcases mem_kept.1 h with ⟨rfl, -⟩ | ⟨rfl, -⟩
  · rfl
  · rw [Change.setNullability]
    split <;> rfl

theorem nullable_of_mem_kept {table name : String} {a w : Column} {table' column : String}
    (h : .setAllowNull table' column ∈ typeMove table name a w ++ nullMove table name a w) :
    w.nullable = true := by
  rcases mem_kept.1 h with ⟨heq, -⟩ | ⟨heq, -⟩
  · cases heq
  · rw [Change.setNullability] at heq
    split at heq
    next hnullable => exact hnullable
    next => cases heq

/-- A column that both tables have is changed in place. -/
theorem ColumnMoves.isInPlace {table : String} {source target : Table} {cs : List Change}
    (h : ColumnMoves table source target cs) {key : String}
    (hsource : (source.columnAt key).isSome = true) (htarget : (target.columnAt key).isSome = true)
    {c : Change} (hc : c ∈ cs) (hkey : c.concerns key = true) : c.kind.isInPlace = true := by
  obtain ⟨moves, hmoves, hperm⟩ := h.cells key
  have hmem : c ∈ moves := hperm.subset (List.mem_filter.2 ⟨hc, hkey⟩)
  generalize source.columnAt key = s at hmoves hsource
  generalize target.columnAt key = t at hmoves htarget
  cases hmoves with
  | absent => cases hmem
  | added column => cases hsource
  | dropped column => cases htarget
  | kept name hname a w => exact isInPlace_of_mem_kept hmem

/-- Changes in place run in any order, where none of them asks a key column to allow NULL. -/
theorem exists_runColumn_inPlace (key : String) {cs : List Change}
    (hcs : ∀ c ∈ cs, c.kind.isInPlace = true) {x : Column}
    (hnull : ∀ c ∈ cs, c.kind = .setAllowNull → x.key = false) :
    ∃ y, runColumn cs key (some x) = some (some y) := by
  induction cs generalizing x with
  | nil => exact ⟨x, rfl⟩
  | cons c cs ih =>
    obtain ⟨hc, hcs⟩ := List.forall_mem_cons.1 hcs
    obtain ⟨hnull, hnulls⟩ := List.forall_mem_cons.1 hnull
    rcases editColumn_inPlace hc key x with ⟨-, hkind, hflag⟩ | ⟨y, hy, hkey⟩
    · rw [hnull hkind] at hflag
      cases hflag
    rw [← hkey] at hnulls
    obtain ⟨z, hz⟩ := ih hcs hnulls
    exact ⟨z, (congrArg (Option.bind · _) hy).trans hz⟩

section Kept

variable {kept : Change → Bool} (hkept : ∀ c, kept c = false → c.kind = .setAllowNull)

include hkept

/-- The moves of a column run without those that ask a key column to allow NULL. -/
theorem exists_runColumn_of_kept {table key : String} {source target : Option Column}
    {moves cs : List Change} (h : CellMoves table key source target moves)
    (hnull : ∀ x, source = some x → x.key = true →
      ∀ c ∈ moves, c.kind = .setAllowNull → kept c = false)
    (hperm : cs.Perm (moves.filter kept)) : ∃ found, runColumn cs key source = some found := by
  have htrue : ∀ c : Change, c.kind ≠ .setAllowNull → kept c = true :=
    fun c hkind => Bool.not_eq_false _ ▸ mt (hkept c) hkind
  cases h with
  | absent =>
    rw [hperm.eq_nil]
    exact ⟨none, rfl⟩
  | added column =>
    rw [List.filter_singleton, htrue _ (by simp [Change.kind])] at hperm
    rw [List.perm_singleton.1 hperm]
    change ∃ found, (Change.editColumn _ key none).bind _ = some found
    rw [Change.editColumn]
    split <;> exact ⟨_, rfl⟩
  | dropped column =>
    rw [List.filter_singleton, htrue _ (by simp [Change.kind])] at hperm
    rw [List.perm_singleton.1 hperm]
    change ∃ found, (Change.editColumn _ key (some column)).bind _ = some found
    rw [Change.editColumn]
    split <;> exact ⟨_, rfl⟩
  | kept name hname a w =>
    have hinPlace : ∀ c ∈ cs, c.kind.isInPlace = true :=
      fun c hc => isInPlace_of_mem_kept (List.mem_of_mem_filter (hperm.subset hc))
    obtain ⟨y, hy⟩ := exists_runColumn_inPlace key hinPlace (x := a) fun c hc hkind => by
      obtain ⟨hmem, hpassed⟩ := List.mem_filter.1 (hperm.subset hc)
      rw [← Bool.not_eq_true]
      intro hflag
      rw [hnull a rfl hflag c hmem hkind] at hpassed
      cases hpassed
    exact ⟨some y, hy⟩

theorem ColumnMoves.exists_runTable {table : String} {source target : Table} {cs : List Change}
    (h : ColumnMoves table source target cs)
    (hdistinct : (source.columns.map Column.matchKey).Nodup)
    (hnull : ∀ key x, source.columnAt key = some x → x.key = true →
      ∀ c ∈ cs, c.concerns key = true → c.kind = .setAllowNull → kept c = false) :
    ∃ t, runTable (cs.filter kept) source = some t := by
  have hcolumns : ∀ key, ∃ found,
      runColumn (cs.filter kept) key (source.columnAt key) = some found := by
    intro key
    obtain ⟨moves, hmoves, hperm⟩ := h.cells key
    rw [runColumn_filter, List.filter_filter]
    simp only [Bool.and_comm (Change.concerns key _)]
    rw [← List.filter_filter]
    refine exists_runColumn_of_kept hkept hmoves (fun x hx hflag c hc hkind => ?_)
      (hperm.filter kept)
    obtain ⟨hmem, hconcerns⟩ := List.mem_filter.1 (hperm.symm.subset hc)
    exact hnull key x hx hflag c hmem hconcerns hkind
  choose found hfound using hcolumns
  obtain ⟨t, ht, -⟩ := runTable_of_columns
    (fun c hc => h.inTable c (List.mem_of_mem_filter hc)) hdistinct hfound
  exact ⟨t, ht⟩

end Kept

/-! ### The changes of a pull -/

/-- The error with which a pull is refused a change: none, unless it leaves the keys alone. -/
def PlanOptions.refusal? (options : PlanOptions) (original : Model) (c : Change) :
    Option SchemaError :=
  if options.skipKeys then original.keyRefusal? c else none

theorem PlanOptions.refusal?_eq_some {options : PlanOptions} {original : Model} {c : Change}
    {e : SchemaError} : options.refusal? original c = some e ↔
      options.skipKeys = true ∧ original.keyRefusal? c = some e := by
  rw [refusal?]
  split <;> simp [*]

def PlanOptions.keeps (options : PlanOptions) (original : Model) (c : Change) : Bool :=
  (options.refusal? original c).isNone

theorem kind_of_not_keeps {options : PlanOptions} {original : Model} (c : Change)
    (h : options.keeps original c = false) : c.kind = .setAllowNull := by
  obtain ⟨e, he⟩ := Option.isSome_iff_exists.1 (Option.isNone_eq_false_iff.1 h)
  obtain ⟨-, hrefusal⟩ := PlanOptions.refusal?_eq_some.1 he
  obtain ⟨table, column, t, found, rfl, -⟩ := keyRefusal?_eq_some.1 hrefusal
  rfl

theorem keeps_eq_false {options : PlanOptions} (hkeys : options.skipKeys = true) {original : Model}
    {table column : String} {t : Table} {x : Column} (ht : original.findTable? table = some t)
    (hx : t.findColumn? column = some x) (hflag : x.key = true) :
    options.keeps original (.setAllowNull table column) = false := by
  have hrefusal := keyRefusal?_eq_some.2 ⟨table, column, t, x, rfl, ht, hx, hflag, rfl⟩
  rw [PlanOptions.keeps, PlanOptions.refusal?_eq_some.2 ⟨hkeys, hrefusal⟩]
  rfl

/-- Without the changes of the key, those of a table are moves of its columns. -/
theorem columnMoves_read {options : PlanOptions} {scope : String → Bool}
    (hkeys : options.skipKeys = true) (hscope : options.inclusion.IsScope scope)
    {original imported : Table} (horiginal : (original.columns.map Column.matchKey).Nodup)
    (himported : (imported.columns.map Column.matchKey).Nodup) (d : Direction) :
    ColumnMoves original.name (d.start original imported) (d.goal original imported)
      (d.read (tableChanges options original imported)) where
  inTable := isInTable_of_mem_read d
  cells key := by
    obtain ⟨moves, hmoves, heq⟩ := exists_cellMoves_read hscope horiginal himported d key
    have hnone : d.read (keyChanges options original imported) = [] := by
      rw [keyChanges, hkeys]
      cases d <;> rfl
    rw [heq, hnone, List.append_nil]
    exact ⟨moves, hmoves, .refl _⟩

section Signatures

variable {kept : Change → Bool} (hkept : ∀ c, kept c = false → c.kind = .setAllowNull)

include hkept

/-- What is read off the other kinds of change is read off those that are kept. -/
theorem filterMap_filter_kept {α : Type} {f : Change → Option α}
    (hf : ∀ c, c.kind = .setAllowNull → f c = none) (cs : List Change) :
    (cs.filter kept).filterMap f = cs.filterMap f := by
  rw [List.filterMap_filter]
  refine List.filterMap_congr fun c _ => ?_
  split
  next => rfl
  next hnot => exact (hf c (hkept c (Bool.not_eq_true _ ▸ hnot))).symm

theorem droppedSignatures_filter (cs : List Change) :
    Change.droppedSignatures (cs.filter kept) = Change.droppedSignatures cs :=
  filterMap_filter_kept hkept (fun c hkind => by cases c <;> first | rfl | cases hkind) cs

theorem addedSignatures_filter (cs : List Change) :
    Change.addedSignatures (cs.filter kept) = Change.addedSignatures cs :=
  filterMap_filter_kept hkept (fun c hkind => by cases c <;> first | rfl | cases hkind) cs

end Signatures

section Pull

variable {options : PlanOptions} {scope : String → Bool}
  (hscope : options.inclusion.IsScope scope) {original imported : Model}
  (horiginal : original.WellFormed) (himported : imported.WellFormed)

include hscope horiginal himported

theorem columnMoves_at (hkeys : options.skipKeys = true) {key : String} (hin : scope key = true)
    {t u : Table} (ht : original.tableAt key = some t) (hu : imported.tableAt key = some u)
    {cs : List Change} (hperm : cs.Perm (Direction.toModel.read
      ((slotChanges options original imported).filter (Change.isAt key)))) :
    ColumnMoves t.name t u cs := by
  rw [filter_isAt_slotChanges hscope horiginal.tables_distinct himported.tables_distinct, hin, ht,
    hu] at hperm
  exact (columnMoves_read hkeys hscope (horiginal.consistent ht).columns_distinct
    (himported.consistent hu).columns_distinct .toModel).perm hperm

/-- The changes about a table that both models have run without those that are refused. -/
theorem exists_keptTable (hkeys : options.skipKeys = true) {key : String} (hin : scope key = true)
    {t u : Table} (ht : original.tableAt key = some t) (hu : imported.tableAt key = some u)
    {cs : List Change} (hperm : cs.Perm (Direction.toModel.read
      ((slotChanges options original imported).filter (Change.isAt key)))) :
    ∃ t', runSlot (cs.filter (options.keeps original)) (some t) = some (some t') := by
  have hmoves := columnMoves_at hscope horiginal himported hkeys hin ht hu hperm
  have hat : ∀ c ∈ cs, c.isAt key = true := by
    intro c hc
    have hmem := hperm.subset hc
    rw [← Direction.filter_read _ (Change.isAt_dual key)] at hmem
    exact (List.mem_filter.1 hmem).2
  have hnull : ∀ column x, t.columnAt column = some x → x.key = true → ∀ c ∈ cs,
      c.concerns column = true → c.kind = .setAllowNull → options.keeps original c = false := by
    intro column x hx hflag c hc hconcerns hkind
    cases c with
    | setAllowNull table name =>
      obtain rfl : foldName table = key := beq_iff_eq.1 (hat _ hc)
      obtain rfl : foldName name = column := beq_iff_eq.1 hconcerns
      exact keeps_eq_false hkeys ht hx hflag
    | _ => cases hkind
  obtain ⟨t', hrun⟩ := hmoves.exists_runTable kind_of_not_keeps
    (horiginal.consistent ht).columns_distinct hnull
  refine ⟨t', ?_⟩
  rw [runSlot_of_inTable fun c hc => hmoves.inTable c (List.mem_of_mem_filter hc), hrun]
  rfl

/-- The changes about one table run without those that are refused, and the table is there
    afterwards if the imported model has it. -/
theorem exists_keptSlot {key : String} {cs : List Change}
    (hperm : cs.Perm (Direction.toModel.read
      ((slotChanges options original imported).filter (Change.isAt key))))
    (hinOrder : Change.InOrder cs) :
    ∃ slot, runSlot (cs.filter (options.keeps original)) (original.tableAt key) = some slot ∧
      (scope key = true → slot.isSome = (imported.tableAt key).isSome) := by
  have hchanges := filter_isAt_slotChanges hscope horiginal.tables_distinct
    himported.tables_distinct key
  cases hin : scope key with
  | false =>
    rw [hchanges, hin] at hperm
    rw [hperm.eq_nil]
    exact ⟨_, rfl, nofun⟩
  | true =>
    cases hkeys : options.skipKeys with
    | false =>
      have hall : cs.filter (options.keeps original) = cs := by
        refine List.filter_eq_self.2 fun c _ => ?_
        rw [PlanOptions.keeps, PlanOptions.refusal?, hkeys]
        rfl
      have hmoves := slotMoves_read hkeys hscope horiginal himported hin .toModel
      rw [Direction.filter_read _ (Change.isAt_dual key)] at hmoves
      obtain ⟨slot, hrun, hrel⟩ := runSlot_of_moves (fun _ ht => horiginal.consistent ht)
        (fun _ ht => himported.consistent ht) (hmoves.perm hperm) hinOrder
      rw [hall]
      exact ⟨slot, hrun, fun _ => isSome_of_rel hrel⟩
    | true =>
      rw [hin] at hchanges
      have hkept : ∀ c : Change, c.kind ≠ .setAllowNull → options.keeps original c = true :=
        fun c hkind => Bool.not_eq_false _ ▸ mt (kind_of_not_keeps c) hkind
      cases ht : original.tableAt key with
      | none =>
        cases hu : imported.tableAt key with
        | none =>
          rw [hchanges, ht, hu] at hperm
          rw [hperm.eq_nil]
          exact ⟨none, rfl, fun _ => rfl⟩
        | some u =>
          rw [hchanges, ht, hu] at hperm
          rw [List.perm_singleton.1 hperm, List.filter_singleton,
            hkept (Change.dropTable u).dual nofun]
          exact ⟨some u, rfl, fun _ => rfl⟩
      | some t =>
        cases hu : imported.tableAt key with
        | none =>
          rw [hchanges, ht, hu] at hperm
          rw [List.perm_singleton.1 hperm, List.filter_singleton,
            hkept (Change.addTable t).dual nofun]
          exact ⟨none, rfl, fun _ => rfl⟩
        | some u =>
          obtain ⟨t', hrun⟩ := exists_keptTable hscope horiginal himported hkeys hin ht hu hperm
          exact ⟨some t', hrun, fun _ => rfl⟩

section Batch

variable {cs : List Change} (hat : ∀ key, (cs.filter (Change.isAt key)).Perm
  (Direction.toModel.read ((slotChanges options original imported).filter (Change.isAt key))))

include hat

/-- NULL is asked of a column only where the imported model has the column, with NULL. -/
theorem exists_target_of_setAllowNull (hkeys : options.skipKeys = true) {table column : String}
    (hc : .setAllowNull table column ∈ cs) {t : Table} {x : Column}
    (ht : original.findTable? table = some t) (hx : t.findColumn? column = some x) :
    scope (foldName table) = true ∧ ∃ u y, imported.tableAt (foldName table) = some u ∧
      u.columnAt (foldName column) = some y ∧ y.nullable = true ∧
        ColumnMoves t.name t u (cs.filter (Change.isAt (foldName table))) := by
  have hmem : .setAllowNull table column ∈ cs.filter (Change.isAt (foldName table)) :=
    List.mem_filter.2 ⟨hc, beq_self_eq_true _⟩
  have hread := (hat _).subset hmem
  rw [filter_isAt_slotChanges hscope horiginal.tables_distinct himported.tables_distinct,
    ← Model.findTable?_eq, ht] at hread
  cases hin : scope (foldName table) with
  | false =>
    rw [hin] at hread
    cases hread
  | true =>
    cases hu : imported.tableAt (foldName table) with
    | none =>
      rw [hin, hu] at hread
      cases List.mem_singleton.1 hread
    | some u =>
      have hmoves := columnMoves_at hscope horiginal himported hkeys hin ht hu (hat _)
      obtain ⟨moves, hcells, hperm⟩ := hmoves.cells (foldName column)
      have hmove : .setAllowNull table column ∈ moves :=
        hperm.subset (List.mem_filter.2 ⟨hmem, beq_self_eq_true _⟩)
      rw [← Table.findColumn?_eq, hx] at hcells
      cases hy : u.columnAt (foldName column) with
      | none =>
        rw [hy] at hcells
        cases hcells
        cases List.mem_singleton.1 hmove
      | some y =>
        rw [hy] at hcells
        cases hcells
        exact ⟨rfl, u, y, rfl, hy, nullable_of_mem_kept hmove, hmoves⟩

/-- The other changes leave the key columns for which NULL is asked. -/
theorem sparesKey_of_setAllowNull (hkeys : options.skipKeys = true) {table column : String}
    (hc : .setAllowNull table column ∈ cs) {t : Table} {x : Column}
    (ht : original.findTable? table = some t) (hx : t.findColumn? column = some x) {b : Change}
    (hb : b ∈ cs) : b.SparesKey (foldName table) (foldName column) := by
  obtain ⟨-, u, y, -, hy, -, hmoves⟩ :=
    exists_target_of_setAllowNull hscope horiginal himported hat hkeys hc ht hx
  intro hbat
  have hmem : b ∈ cs.filter (Change.isAt (foldName table)) := List.mem_filter.2 ⟨hb, hbat⟩
  exact ⟨hmoves.inTable b hmem, fun hconcerns => hmoves.isInPlace
    (Option.isSome_iff_exists.2 ⟨x, hx⟩) (Option.isSome_iff_exists.2 ⟨y, hy⟩) hmem hconcerns⟩

/-- A pull is refused nothing exactly where no key column is left that the imported model allows
    to be NULL. -/
theorem refusals_eq_none_iff (hkeys : options.skipKeys = true) :
    (∀ c ∈ cs, original.keyRefusal? c = none) ↔
      ∀ key t u, scope key = true → original.tableAt key = some t →
        imported.tableAt key = some u → ∀ column x y, t.columnAt column = some x →
          u.columnAt column = some y → x.key = true → y.nullable = false := by
  constructor
  · intro hnone key t u hin ht hu column x y hx hy hflag
    by_contra hnullable
    rw [Bool.not_eq_false] at hnullable
    have hmoves := columnMoves_at hscope horiginal himported hkeys hin ht hu (hat key)
    obtain ⟨moves, hcells, hperm⟩ := hmoves.cells column
    rw [hx, hy] at hcells
    cases hcells with
    | kept name hname =>
      have hnotNull : x.nullable = false :=
        (horiginal.consistent ht).key_notNull x (mem_of_entryAt hx) hflag
      have hasked : .setAllowNull t.name name ∈
          typeMove t.name name x y ++ nullMove t.name name x y := by
        simp [nullMove, hnotNull, hnullable, Change.setNullability]
      have hmem := List.mem_of_mem_filter (List.mem_of_mem_filter (hperm.symm.subset hasked))
      have htable : original.findTable? t.name = some t := by
        rw [← ht, ← keyOf_entryAt ht]
        rfl
      have hcolumn : t.findColumn? name = some x := by
        rw [Table.findColumn?_eq, hname]
        exact hx
      have hrefused := hnone _ hmem
      rw [keyRefusal?_eq_some.2 ⟨_, _, t, x, rfl, htable, hcolumn, hflag, rfl⟩] at hrefused
      cases hrefused
  · intro hkept c hc
    rw [← Option.not_isSome_iff_eq_none, Option.isSome_iff_exists]
    rintro ⟨e, he⟩
    obtain ⟨table, column, t, x, rfl, ht, hx, hflag, -⟩ := keyRefusal?_eq_some.1 he
    obtain ⟨hin, u, y, hu, hy, hnullable, -⟩ :=
      exists_target_of_setAllowNull hscope horiginal himported hat hkeys hc ht hx
    rw [hkept _ t u hin ht hu _ x y hx hy hflag] at hnullable
    cases hnullable

end Batch

/-! ### The joins of a pull -/

omit horiginal himported in
/-- The signatures that a pull adds are not there before it. -/
theorem nodup_signatures_and_added
    (hunambiguous : (joinDifference options.inclusion original imported).ambiguous = []) :
    (original.signaturesIn scope ++
      (joinDifference options.inclusion original imported).onlyImported.map
        Join.signature).Nodup := by
  obtain ⟨hnodup, hnodup'⟩ := nodup_keys_of_unambiguous hunambiguous
  have hadded := ((perm_imports Join.signature (original.joinsIn options.inclusion)
    (imported.joinsIn options.inclusion)).map Join.signature).nodup_iff.2 hnodup'
  rw [List.map_append] at hadded
  rw [← hscope.map_signature_joinsIn]
  refine hnodup.append hadded.of_append_right fun signature hthere hnew => ?_
  obtain ⟨j, hj, rfl⟩ := List.mem_map.1 hnew
  exact ((mem_onlyImported_iff hnodup').1 hj).2 hthere

omit horiginal himported in
/-- The joins that a pull drops are there before it. -/
theorem exists_signatures_kept (original imported : Model) :
    ∃ rest, (original.signaturesIn scope).Perm
      ((joinsToAdd options original imported).map Join.signature ++ rest) := by
  rw [joinsToAdd]
  split
  · exact ⟨_, .refl _⟩
  · obtain ⟨kept, hkept, -⟩ := exists_kept_signatures hscope original imported .toModel
    exact ⟨kept, hkept⟩

end Pull

section Execute

variable {options : PlanOptions} {original imported : Model} {p : Plan}
  (hplan : plan options original imported = .ok p) {cs : List Change}
  (hperm : cs.Perm (p.changes.map Change.dual))

include hplan hperm

/-- The changes of a pull are about tables or about joins. -/
theorem exists_perm_of_pull : ∃ ofJoins,
    JoinMoves (joinsToAdd options original imported)
      (joinDifference options.inclusion original imported).onlyImported ofJoins ∧
    cs.Perm (Direction.toModel.read (slotChanges options original imported) ++ ofJoins) := by
  obtain ⟨ofJoins, hofJoins, hchanges⟩ := Plan.perm_changes hplan
  refine ⟨ofJoins.map Change.dual, (joinMoves_of_joinChanges hofJoins).dual, ?_⟩
  exact hperm.trans ((hchanges.map _).trans (.of_eq List.map_append))

theorem filter_isAt_of_pull (key : String) : (cs.filter (Change.isAt key)).Perm
    (Direction.toModel.read ((slotChanges options original imported).filter (Change.isAt key))) := by
  obtain ⟨ofJoins, hmoves, hcs⟩ := exists_perm_of_pull hplan hperm
  refine (hcs.filter _).trans (.of_eq ?_)
  rw [List.filter_append, hmoves.filter_isAt, List.append_nil,
    Direction.filter_read _ (Change.isAt_dual key)]

variable {scope : String → Bool} (hscope : options.inclusion.IsScope scope)
  (horiginal : original.WellFormed) (himported : imported.WellFormed)

include hscope horiginal himported

/-- **The changes of a pull that are not refused run through.** -/
theorem exists_run_of_kept (hunambiguous : p.ambiguous = []) (hinOrder : Change.InOrder cs) :
    ∃ m, original.runChanges Model.compile (cs.filter (options.keeps original)) = .ok m := by
  obtain ⟨ofJoins, hmoves, hcs⟩ := exists_perm_of_pull hplan hperm
  rw [ambiguous_of_plan hplan] at hunambiguous
  obtain ⟨-, -, hjoins⟩ := ambiguousKeys_eq_nil.1 hunambiguous
  have htables : ∀ c ∈ Direction.toModel.read (slotChanges options original imported),
      c.kind.isJoin = false := by
    refine Direction.forall_mem_read _ (fun c hc => ?_) fun c hc => isJoin_of_mem_slotChanges hc
    rw [Change.isJoin_dual]
    exact hc
  -- the tables
  have hslots : ∀ key, ∃ slot, runSlot ((cs.filter (options.keeps original)).filter
      (Change.isAt key)) (original.tableAt key) = some slot ∧
        (scope key = true → slot.isSome = (imported.tableAt key).isSome) := by
    intro key
    rw [List.filter_comm]
    exact exists_keptSlot hscope horiginal himported (filter_isAt_of_pull hplan hperm key)
      (hinOrder.filter _)
  choose slot hslot hthere using hslots
  -- the joins
  have hdropped : (Change.droppedSignatures (cs.filter (options.keeps original))).Perm
      ((joinsToAdd options original imported).map Join.signature) := by
    rw [droppedSignatures_filter kind_of_not_keeps, ← hmoves.dropped]
    refine (hcs.filterMap _).trans (.of_eq ?_)
    exact (Change.droppedSignatures_append _ _).trans
      (congrArg (· ++ _) (Change.droppedSignatures_of_tables htables))
  have hadded : (Change.addedSignatures (cs.filter (options.keeps original))).Perm
      ((joinDifference options.inclusion original imported).onlyImported.map Join.signature) := by
    rw [addedSignatures_filter kind_of_not_keeps, ← hmoves.added]
    refine (hcs.filterMap _).trans (.of_eq ?_)
    exact (Change.addedSignatures_append _ _).trans
      (congrArg (· ++ _) (Change.addedSignatures_of_tables htables))
  obtain ⟨rest, hrest⟩ := exists_signatures_kept hscope original imported
  refine exists_run_of_phases settling_compile horiginal.tables_distinct (fun j hj => ?_)
    (hinOrder.filter _) hslot (hrest.trans (hdropped.symm.append_right _)) ?_ ?_
  · obtain ⟨k, hk, rfl⟩ := List.mem_map.1 hj
    exact (horiginal.legible hk).anonymous
  · exact (hadded.append_left _).nodup_iff.2 (nodup_signatures_and_added hscope hjoins)
  · intro j referencing hj
    have hmem : .addJoin j referencing ∈ ofJoins := by
      rcases List.mem_append.1 (hcs.subset (List.mem_of_mem_filter hj)) with htable | hjoin
      · cases htables _ htable
      · exact hjoin
    obtain ⟨hlegible, hwithin, hcomplete⟩ := hmoves.additions himported
      (fun k hk => mem_goal_of_onlyOne hscope .toModel hk) j referencing hmem
    refine ⟨hlegible, hwithin, fun s => ?_⟩
    rw [hthere _ (Join.isWithin_iff.1 hwithin s)]
    exact hcomplete s

end Execute

/-! ### What a pull is refused -/

theorem Plan.sortTokens_reversed (p : Plan) : sortTokens p.reversed.tokens = p.reversed.tokens :=
  sortTokens_of_inOrder (inOrder_sortTokens _)

/-- A model that still has the key columns for which NULL is asked in a pull. -/
def Model.HoldsKeys (m : Model) (options : PlanOptions) (original : Model) (cs : List Change) :
    Prop :=
  ∀ table column e, .setAllowNull table column ∈ cs →
    options.refusal? original (.setAllowNull table column) = some e →
      m.HasKeyColumn (foldName table) (foldName column)

section Refusals

variable {options : PlanOptions} {original m : Model} {cs : List Change}

theorem Model.WellFormed.holdsKeys (h : original.WellFormed) :
    original.HoldsKeys options original cs := by
  intro table column e _ he
  obtain ⟨-, hrefusal⟩ := PlanOptions.refusal?_eq_some.1 he
  obtain ⟨_, _, t, x, ⟨⟩, ht, hx, hflag, -⟩ := keyRefusal?_eq_some.1 hrefusal
  exact ⟨h.tables_distinct, t, ht, (h.consistent ht).columns_distinct, x, hx, hflag⟩

theorem Model.HoldsKeys.refuses (h : m.HoldsKeys options original cs) {c : Change} (hc : c ∈ cs)
    {e : SchemaError} (he : options.refusal? original c = some e) : c.apply m = .error e := by
  obtain ⟨-, hrefusal⟩ := PlanOptions.refusal?_eq_some.1 he
  obtain ⟨table, column, t, x, rfl, -, -, -, rfl⟩ := keyRefusal?_eq_some.1 hrefusal
  exact apply_of_keyRefusal? (h table column _ hc he).keyRefusal?

variable {scope : String → Bool} {imported : Model} {p : Plan}
  (hscope : options.inclusion.IsScope scope) (horiginal : original.WellFormed)
  (himported : imported.WellFormed) (hplan : plan options original imported = .ok p)

include hscope horiginal himported hplan

theorem Model.HoldsKeys.apply (hperm : cs.Perm (p.changes.map Change.dual))
    (h : m.HoldsKeys options original cs) {c : Change} (hc : c ∈ cs) {edited : Edited Unit}
    (happly : c.apply m = .ok edited) : edited.model.compile.HoldsKeys options original cs := by
  intro table column e hasked he
  obtain ⟨hkeys, hrefusal⟩ := PlanOptions.refusal?_eq_some.1 he
  obtain ⟨_, _, t, x, ⟨⟩, ht, hx, -, -⟩ := keyRefusal?_eq_some.1 hrefusal
  have hspares := sparesKey_of_setAllowNull hscope horiginal himported
    (filter_isAt_of_pull hplan hperm) hkeys hasked ht hx hc
  exact ((h table column e hasked he).apply hspares happly).of_tables (Model.tables_compile _)

/-- **What comes of a pull**: every change that is not refused is made, and the others fail. -/
theorem exists_execute_reversed (hunambiguous : p.ambiguous = []) (d : Dialect) :
    ∃ m, execute d p.reversed.tokens original =
      { report :=
          { modelChanges := (p.reversed.tokens.map Token.change).countP fun c =>
              (options.refusal? original c).isNone
            failures := p.reversed.tokens.filterMap (failureOf (options.refusal? original)) }
        model := m } := by
  have hperm := p.changes_reversed
  have hdirection := direction_reversed hplan
  have hinOrder := Change.inOrder_of_sortTokens p.reversed.tokens
  rw [p.sortTokens_reversed] at hperm hdirection hinOrder
  obtain ⟨m, hrun⟩ := exists_run_of_kept hplan hperm hscope horiginal himported hunambiguous
    hinOrder
  have hrefused : ∀ t ∈ p.reversed.tokens, ∀ e, options.refusal? original t.change = some e →
      ∀ m, m.HoldsKeys options original (p.reversed.tokens.map Token.change) →
        t.change.apply m = .error e :=
    fun t ht e he m hm => hm.refuses (List.mem_map_of_mem ht) he
  have hkept : ∀ t ∈ p.reversed.tokens, ∀ m edited,
      m.HoldsKeys options original (p.reversed.tokens.map Token.change) →
        t.change.apply m = .ok edited →
          edited.model.compile.HoldsKeys options original (p.reversed.tokens.map Token.change) :=
    fun t ht m edited hm happly =>
      hm.apply hscope horiginal himported hplan hperm (List.mem_map_of_mem ht) happly
  refine ⟨m, ?_⟩
  rw [execute, p.sortTokens_reversed,
    run_refusing d _ _ hdirection hrefused hkept (x := { model := original }) horiginal.holdsKeys hrun]
  simp

end Refusals

/-- **A pull fails only where it would allow NULL in a key that it leaves alone.**  Whatever a
    plan leaves out, the reversed plan fails at the changes that its options refuse, in order and
    with the error of the key, and every other token changes the original model.  Nothing fails
    unless keys are left alone, and then just if the imported model allows NULL in a column that
    the original one has in a key. -/
theorem pull_refusals {options : PlanOptions} {scope : String → Bool}
    (hscope : options.inclusion.IsScope scope) {original imported : Model}
    (horiginal : original.WellFormed) (himported : imported.WellFormed) {p : Plan}
    (hplan : plan options original imported = .ok p) (hunambiguous : p.ambiguous = [])
    (d : Dialect) :
    let report := (execute d p.reversed.tokens original).report
    report.failures = p.reversed.tokens.filterMap (failureOf (options.refusal? original)) ∧
      report.modelChanges + report.failures.length = p.tokens.length ∧
      (report.failures = [] ↔ options.skipKeys = false ∨
        ∀ key t u, scope key = true → original.tableAt key = some t →
          imported.tableAt key = some u → ∀ column x y, t.columnAt column = some x →
            u.columnAt column = some y → x.key = true → y.nullable = false) := by
  obtain ⟨m, hexecute⟩ :=
    exists_execute_reversed hscope horiginal himported hplan hunambiguous d
  have hperm := p.changes_reversed
  rw [p.sortTokens_reversed] at hperm
  have hlength : p.reversed.tokens.length = p.tokens.length := by
    rw [Plan.reversed, (perm_sortTokens _).length_eq, List.length_map]
  simp only [hexecute]
  refine ⟨trivial, ?_, ?_⟩
  · rw [countP_add_failures, hlength]
  · rw [failures_eq_nil_iff]
    cases hkeys : options.skipKeys with
    | false => simp [PlanOptions.refusal?, hkeys]
    | true =>
      have hrefusal : ∀ c, options.refusal? original c = original.keyRefusal? c := by
        intro c
        rw [PlanOptions.refusal?, hkeys]
        rfl
      simp only [hrefusal, Bool.true_eq_false, false_or]
      exact refusals_eq_none_iff hscope horiginal himported (filter_isAt_of_pull hplan hperm) hkeys

/-- The plan of the sample models that leaves out additions of joins and changes of keys. -/
def partialPlan : Plan :=
  (plan { skipJoins := true, skipKeys := true } sampleModel sampleImport).toOption.getD {}

theorem pull_refusals_sample :
    let report := (execute .sqlite partialPlan.reversed.tokens sampleModel).report
    partialPlan.tokens.length = 10 ∧ report.failures.length = 1 ∧
      report.failures = partialPlan.reversed.tokens.filterMap
        (failureOf (PlanOptions.refusal? { skipJoins := true, skipKeys := true } sampleModel)) ∧
      report.modelChanges + report.failures.length = partialPlan.tokens.length := by
  have hplan : plan { skipJoins := true, skipKeys := true } sampleModel sampleImport =
      .ok partialPlan := by
    decide +kernel
  have hpull := pull_refusals Inclusion.isScope_all (by decide +kernel) (by decide +kernel) hplan
    (by decide +kernel) .sqlite
  exact ⟨by decide +kernel, by decide +kernel, hpull.1, hpull.2.1⟩

/-- A table of artists, with its column as a key column or with NULL. -/
def artists (key : Bool) : Model where
  tables :=
    [{ name := "ARTIST"
       columns := [⟨"ID", .integer, !key, key⟩]
       primaryKey := if key then ["ID"] else [] }]

/-- A pull without changes of keys fails where the key has to go first. -/
theorem pull_fails_artists :
    (artists true).WellFormed ∧ (artists false).WellFormed ∧
      plan { skipKeys := true } (artists true) (artists false) =
        .ok { tokens := [⟨.toDatabase, .setNotNull "ARTIST" "ID"⟩] } ∧
      (execute .sqlite
        (Plan.reversed { tokens := [⟨.toDatabase, .setNotNull "ARTIST" "ID"⟩] }).tokens
        (artists true)).report.failures =
          [⟨⟨.toModel, .setAllowNull "ARTIST" "ID"⟩,
            "Invalid model state: Primary key column 'ARTIST.ID' cannot allow NULL"⟩] := by
  decide +kernel

end SchemaDrift
