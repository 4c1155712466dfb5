/-
  SchemaDrift/Proofs/Coherence.lean
  =================================
  **A coherent model stays coherent, whatever changes are tried on it.**

  A model is coherent when no two of its tables share a name, each of them is
  consistent, the tables of every join are there, and no two joins share a signature.
  A change is proper when it brings no contradiction along: an added table is
  consistent, an added key column excludes NULL, and a new key lists no column twice.
  Changes that are refused may stand anywhere in the run.  Main statement:
  `coherent_of_mem_scanl`.

  What a table keeps twice is compared key by key.  `Fits` relates the column under a
  key to whether the primary key lists it, and each change inside a table takes what
  fits to what fits (`Fits.editColumn`).  For the model only two things are left: a
  table that goes takes its joins along (`isSome_editSlot`), and a join comes in only
  where its tables are there and its signature is not.
-/
import SchemaDrift.Proofs.Convergence

namespace SchemaDrift

/-! ### What is asked -/

/-- A model in which every name and every signature leads to one thing, which agrees with
    itself. -/
structure Model.Coherent (m : Model) : Prop where
  tables_distinct : (m.tables.map Table.matchKey).Nodup
  tables_consistent : ∀ t ∈ m.tables, t.Consistent
  joins_complete : ∀ j ∈ m.joins, ∀ s, (m.findTable? (j.entity s)).isSome = true
  signatures_distinct : (m.joins.map Join.signature).Nodup

/-- A change that brings no contradiction along. -/
def Change.Proper : Change → Prop
  | addTable table => table.Consistent
  | addColumn _ column => column.key = true → column.nullable = false
  | setPrimaryKey _ _ new => (new.map foldName).Nodup
  | _ => True

instance : DecidablePred Change.Proper
  | .addTable table => inferInstanceAs (Decidable table.Consistent)
  | .addColumn _ column => inferInstanceAs (Decidable (column.key = true → column.nullable = false))
  | .setPrimaryKey _ _ new => inferInstanceAs (Decidable (new.map foldName).Nodup)
  | .dropTable _ | .dropColumn _ _ | .addJoin _ _ | .dropJoin _ _ | .setColumnType _ _ _ _
  | .setNotNull _ _ | .setAllowNull _ _ => .isTrue trivial

/-- One step of a run in which a change that is refused is passed over. -/
def Model.applyOrSkip (m : Model) (c : Change) : Model :=
  match c.apply m with
  | .ok edited => edited.model
  | .error _ => m

/-! ### Tables, key by key -/

/-- What a consistent table has under a key, given whether its primary key lists it. -/
def Fits (listed : Prop) : Option Column → Prop
  | none => ¬ listed
  | some c => (c.key = true ↔ listed) ∧ (c.key = true → c.nullable = false)

theorem Table.consistent_iff_fits {t : Table} :
    t.Consistent ↔ (t.columns.map Column.matchKey).Nodup ∧ t.foldedKey.Nodup ∧
      ∀ key, Fits (key ∈ t.foldedKey) (t.columnAt key) := by
  constructor
  · intro h
    refine ⟨h.columns_distinct, h.key_distinct, fun key => ?_⟩
    cases hfound : t.columnAt key with
    | none => exact h.notMem_key_of_none hfound
    | some c => exact ⟨h.key_iff hfound, h.key_notNull c (mem_of_entryAt hfound)⟩
  · rintro ⟨hcolumns, hkey, hfits⟩
    have hcolumn : ∀ c ∈ t.columns, Fits (c.matchKey ∈ t.foldedKey) (some c) := by
      intro c hc
      rw [← entryAt_of_mem hcolumns hc]
      exact hfits c.matchKey
    refine ⟨hcolumns, hkey, fun name hname => ?_, fun c hc => ?_, fun c hc => (hcolumn c hc).2⟩
    · have hname' := hfits (foldName name)
      rw [findColumn?_eq]
      cases hfound : t.columnAt (foldName name) with
      | none =>
        rw [hfound] at hname'
        exact (hname' (List.mem_map_of_mem hname)).elim
      | some c => rfl
    · rw [Bool.eq_iff_iff, (hcolumn c hc).1, isKeyColumn, namedIn_iff]
      rfl

theorem mem_editKey_of_not_concerns {c : Change} {key : String} (h : c.concerns key = false)
    (entries : List String) :
    key ∈ (c.editKey entries).map foldName ↔ key ∈ entries.map foldName := by
  cases c with
  | addColumn table column =>
    have hother : key ≠ foldName column.name := by
      rintro rfl
      simp [Change.concerns, Column.matchKey] at h
    rw [Change.editKey]
    split
    · simp [hother]
    · rfl
  | dropColumn table column =>
    simp only [Change.editKey, List.mem_map, List.mem_filter]
    constructor
    · rintro ⟨entry, ⟨hentry, -⟩, rfl⟩
      exact ⟨entry, hentry, rfl⟩
    · rintro ⟨entry, hentry, rfl⟩
      refine ⟨entry, ⟨hentry, ?_⟩, rfl⟩
      have hother : ¬ sameName entry column.name = true := by
        rw [sameName_iff]
        intro heq
        exact ne_of_beq_false h heq.symm
      simp [hother]
  | setPrimaryKey table old new => cases h
  | _ => rfl

theorem fits_markKey (key : List String) (x : Column) :
    Fits (x.matchKey ∈ key.map foldName) (some (Table.markKey key x)) := by
  have hnamed : namedIn key x.name = true ↔ x.matchKey ∈ key.map foldName := namedIn_iff
  rw [Table.markKey]
  split
  next hmarked => exact ⟨iff_of_true rfl (hnamed.1 hmarked), fun _ => rfl⟩
  next hmarked =>
    refine ⟨iff_of_false Bool.false_ne_true (hnamed.not.1 hmarked), ?_⟩
    intro hflag
    cases hflag

theorem fits_addedColumn (table : String) {column : Column}
    (hc : column.key = true → column.nullable = false) {entries : List String}
    (hnew : column.matchKey ∉ entries.map foldName) :
    Fits (column.matchKey ∈ ((Change.addColumn table column).editKey entries).map foldName)
      (some column) := by
  refine ⟨?_, hc⟩
  rw [Change.editKey]
  split
  next hflag => simp [hflag, Column.matchKey]
  next hflag => exact iff_of_false hflag hnew

theorem notMem_editKey_dropColumn (table : String) (column : Column) (entries : List String) :
    column.matchKey ∉ ((Change.dropColumn table column).editKey entries).map foldName := by
  intro hlisted
  obtain ⟨entry, hentry, hmatch⟩ := List.mem_map.1 hlisted
  have hother := (List.mem_filter.1 hentry).2
  rw [sameName_iff.2 hmatch] at hother
  cases hother

/-- No change is applied that would make the column under a key disagree with the key list. -/
theorem Fits.editColumn {c : Change} (hc : c.Proper) {entries : List String} {key : String}
    {found next : Option Column} (hkey : ∀ x, found = some x → x.matchKey = key)
    (h : Fits (key ∈ entries.map foldName) found) (hedit : c.editColumn key found = some next) :
    Fits (key ∈ (c.editKey entries).map foldName) next := by
  by_cases hconcerns : c.concerns key = true
  · cases c with
    | addColumn table column =>
      obtain rfl : column.matchKey = key := beq_iff_eq.1 hconcerns
      rw [Change.editColumn, if_pos rfl] at hedit
      cases found with
      | some _ => cases hedit
      | none =>
        obtain rfl := Option.some.inj hedit
        exact fits_addedColumn table hc h
    | dropColumn table column =>
      obtain rfl : column.matchKey = key := beq_iff_eq.1 hconcerns
      rw [Change.editColumn, if_pos rfl] at hedit
      obtain ⟨_, _, rfl⟩ := Option.map_eq_some_iff.1 hedit
      exact notMem_editKey_dropColumn table column entries
    | setPrimaryKey table old new =>
      cases found with
      | none =>
        simp only [Change.editColumn] at hedit
        split at hedit
        next => cases hedit
        next hnot =>
          obtain rfl := Option.some.inj hedit
          exact hnot
      | some x =>
        obtain rfl := Option.some.inj hedit
        rw [← hkey x rfl]
        exact fits_markKey new x
    | setColumnType table name old new =>
      rw [Change.editColumn, if_pos (beq_iff_eq.1 hconcerns)] at hedit
      obtain ⟨x, rfl, rfl⟩ := Option.map_eq_some_iff.1 hedit
      exact h
    | setNotNull table name =>
      rw [Change.editColumn, if_pos (beq_iff_eq.1 hconcerns)] at hedit
      obtain ⟨x, rfl, rfl⟩ := Option.map_eq_some_iff.1 hedit
      exact ⟨h.1, fun _ => rfl⟩
    | setAllowNull table name =>
      rw [Change.editColumn, if_pos (beq_iff_eq.1 hconcerns)] at hedit
      obtain ⟨x, rfl, hrest⟩ := Option.bind_eq_some_iff.1 hedit
      split at hrest
      next => cases hrest
      next hflag =>
        -- a column that is not refused is no key column
        obtain rfl := Option.some.inj hrest
        exact ⟨h.1, fun hkept => (hflag hkept).elim⟩
    | addTable table => cases hconcerns
    | dropTable table => cases hconcerns
    | addJoin join referencing => cases hconcerns
    | dropJoin join referencing => cases hconcerns
  · rw [Bool.not_eq_true] at hconcerns
    rw [editColumn_of_not_concerns hconcerns] at hedit
    rw [mem_editKey_of_not_concerns hconcerns, ← Option.some.inj hedit]
    exact h

/-! ### Changes inside a table -/

theorem Table.Consistent.nodup_editKey {c : Change} (hc : c.Proper) {t t' : Table}
    (ht : t.Consistent) (h : c.editTable t = some t') :
    ((c.editKey t.primaryKey).map foldName).Nodup := by
  cases c with
  | addColumn table column =>
    simp only [Change.editTable] at h
    split at h
    next => cases h
    next hfree =>
      have hnone : t.columnAt (foldName column.name) = none := by
        simpa [findColumn?_eq] using hfree
      have hnew : foldName column.name ∉ t.foldedKey := ht.notMem_key_of_none hnone
      rw [Change.editKey]
      split
      · rw [List.map_append, List.map_singleton, ← List.concat_eq_append]
        exact ht.key_distinct.concat hnew
      · exact ht.key_distinct
  | dropColumn table column => exact ht.key_distinct.sublist (List.filter_sublist.map foldName)
  | setPrimaryKey table old new => exact hc
  | _ => exact ht.key_distinct

/-- **A consistent table stays consistent** under the proper changes inside it. -/
theorem Table.Consistent.editTable {c : Change} (hkind : c.kind.isInTable = true) (hc : c.Proper)
    {t t' : Table} (ht : t.Consistent) (h : c.editTable t = some t') : t'.Consistent := by
  obtain ⟨next, hnext, hedits⟩ := exists_editsTo_of_editTable ht.columns_distinct hkind h
  refine consistent_iff_fits.2 ⟨hedits.distinct, ?_, fun key => ?_⟩
  · rw [foldedKey, hedits.key]
    exact ht.nodup_editKey hc h
  · rw [hedits.columns, foldedKey, hedits.key]
    have hfits := (consistent_iff_fits.1 ht).2.2 key
    exact hfits.editColumn hc (fun _ hx => keyOf_entryAt hx) (hnext key)

/-! ### Changes of the tables -/

theorem consistent_editSlot {c : Change} (hkind : c.kind.isJoin = false) (hc : c.Proper)
    {found slot : Option Table} (hfound : ∀ t, found = some t → t.Consistent)
    (h : c.editSlot found = some slot) : ∀ t, slot = some t → t.Consistent := by
  rcases editSlot_cases hkind h with
    ⟨t, t', hinTable, rfl, hedit, rfl⟩ | ⟨t, rfl, -, rfl⟩ | ⟨t, old, -, -, rfl⟩
  · rintro _ ⟨⟩
    exact (hfound t rfl).editTable hinTable hc hedit
  · rintro _ ⟨⟩
    exact hc
  · rintro _ ⟨⟩

/-- The table of a join goes only where the join goes too. -/
theorem isSome_editSlot {c : Change} (hkind : c.kind.isJoin = false) {j : Join}
    (hspared : c.spares j = true) {s : Side} (hs : foldName c.table = foldName (j.entity s))
    {found slot : Option Table} (h : c.editSlot found = some slot) : slot.isSome = true := by
  rcases editSlot_cases hkind h with
    ⟨t, t', -, -, -, rfl⟩ | ⟨t, -, -, rfl⟩ | ⟨t, old, rfl, -, -⟩
  · rfl
  · rfl
  · exact absurd hs.symm (Change.spares_dropTable.1 hspared s)

namespace Model

theorem coherent_iff {m : Model} :
    m.Coherent ↔ (m.tables.map Table.matchKey).Nodup ∧ (∀ t ∈ m.tables, t.Consistent) ∧
      (∀ j ∈ m.anonymousJoins, ∀ s, (m.findTable? (j.entity s)).isSome = true) ∧
      (m.anonymousJoins.map Join.signature).Nodup := by
  have hsignatures : m.anonymousJoins.map Join.signature = m.joins.map Join.signature := by
    rw [anonymousJoins, List.map_map]
    rfl
  rw [hsignatures, anonymousJoins, List.forall_mem_map]
  constructor
  · intro h
    exact ⟨h.1, h.2, h.3, h.4⟩
  · rintro ⟨h₁, h₂, h₃, h₄⟩
    exact ⟨h₁, h₂, h₃, h₄⟩

instance (m : Model) : Decidable m.Coherent := decidable_of_iff _ coherent_iff.symm

/-- Naming the joins, or having fewer of them, is no harm. -/
theorem Coherent.of_sublist {m m' : Model} (h : m.Coherent) (htables : m'.tables = m.tables)
    (hjoins : m'.anonymousJoins.Sublist m.anonymousJoins) : m'.Coherent := by
  obtain ⟨hdistinct, hconsistent, hcomplete, hsignatures⟩ := coherent_iff.1 h
  have hfind : ∀ name, m'.findTable? name = m.findTable? name := by
    intro name
    rw [findTable?, findTable?, htables]
  refine coherent_iff.2 ⟨?_, ?_, fun j hj s => ?_, hsignatures.sublist (hjoins.map _)⟩
  · rwa [htables]
  · rwa [htables]
  · rw [hfind]
    exact hcomplete j (hjoins.subset hj) s

theorem Coherent.compile {m : Model} (h : m.Coherent) : m.compile.Coherent :=
  h.of_sublist (tables_compile m) (anonymousJoins_compile m ▸ .refl _)

theorem Coherent.slotStep {m m' : Model} (h : m.Coherent) {c : Change}
    (hkind : c.kind.isJoin = false) (hc : c.Proper) {slot : Option Table}
    (hslot : c.editSlot (m.tableAt (foldName c.table)) = some slot) (hstep : SlotStep c m slot m') :
    m'.Coherent := by
  obtain ⟨-, -, hcomplete, hsignatures⟩ := coherent_iff.1 h
  have hconsistent : ∀ key t, m.tableAt key = some t → t.Consistent := by
    intro key t ht
    exact h.tables_consistent t (mem_of_entryAt ht)
  refine coherent_iff.2 ⟨hstep.distinct, fun t ht => ?_, fun j hj s => ?_, ?_⟩
  · have hfound := hstep.tables t.matchKey
    rw [Model.tableAt, entryAt_of_mem hstep.distinct ht] at hfound
    split at hfound
    next hkey => exact consistent_editSlot hkind hc (hconsistent _) hslot t hfound.symm
    next => exact hconsistent _ t hfound.symm
  · rw [hstep.joins, List.mem_filter] at hj
    rw [findTable?_eq, hstep.tables]
    split
    next hkey => exact isSome_editSlot hkind hj.2 hkey hslot
    next => exact hcomplete j hj.1 s
  · rw [hstep.joins]
    exact hsignatures.sublist (List.filter_sublist.map _)

theorem Coherent.addJoin {m : Model} (h : m.Coherent) {j : Join}
    (htables : ∀ s, (m.findTable? (j.entity s)).isSome = true)
    (hnew : ∀ k ∈ m.joins, k.signature ≠ j.signature) : (m.addJoin j).model.Coherent := by
  obtain ⟨hdistinct, hconsistent, hcomplete, hsignatures⟩ := coherent_iff.1 h
  refine coherent_iff.2 ⟨hdistinct, hconsistent, ?_, ?_⟩
  · intro k hk s
    rw [anonymousJoins_addJoin, List.mem_append, List.mem_singleton] at hk
    rcases hk with hold | rfl
    · exact hcomplete k hold s
    · exact htables s
  · rw [anonymousJoins_addJoin, List.map_append, List.map_singleton, ← List.concat_eq_append]
    refine hsignatures.concat ?_
    intro hmem
    obtain ⟨k, hk, hsignature⟩ := List.mem_map.1 hmem
    obtain ⟨k', hk', rfl⟩ := List.mem_map.1 hk
    exact hnew k' hk' hsignature

theorem Coherent.apply {m : Model} (h : m.Coherent) {c : Change} (hc : c.Proper)
    {edited : Edited Unit} (happly : c.apply m = .ok edited) : edited.model.Coherent := by
  rcases Bool.eq_false_or_eq_true c.kind.isJoin with hkind | hkind
  · cases c with
    | addJoin j referencing =>
      obtain ⟨htables, hnew, rfl⟩ := apply_addJoin_eq_ok.1 happly
      exact h.addJoin htables hnew
    | dropJoin j referencing =>
      obtain ⟨position, removed, -, -, rfl⟩ := apply_dropJoin_eq_ok.1 happly
      apply Coherent.compile
      exact h.of_sublist rfl ((List.eraseIdx_sublist m.joins position).map Join.anonymous)
    | _ => cases hkind
  · obtain ⟨slot, hslot, hstep⟩ := slotStep_of_apply h.tables_distinct hkind happly
    exact h.slotStep hkind hc hslot hstep

theorem Coherent.applyOrSkip {m : Model} (h : m.Coherent) {c : Change} (hc : c.Proper) :
    (m.applyOrSkip c).Coherent := by
  rw [Model.applyOrSkip]
  split
  next edited happly => exact h.apply hc happly
  next => exact h

end Model

/-! ### Runs -/

/-- **Every model along a run of proper changes is coherent** if the first one is, whichever of
    the changes are refused. -/
theorem coherent_of_mem_scanl {m : Model} (hm : m.Coherent) {cs : List Change}
    (hcs : ∀ c ∈ cs, c.Proper) : ∀ m' ∈ cs.scanl Model.applyOrSkip m, m'.Coherent := by
  induction cs generalizing m with
  | nil =>
    intro m' hm'
    obtain rfl := List.mem_singleton.1 hm'
    exact hm
  | cons c cs ih =>
    obtain ⟨hc, hrest⟩ := List.forall_mem_cons.1 hcs
    rw [List.scanl_cons, List.forall_mem_cons]
    exact ⟨hm, ih (hm.applyOrSkip hc) hrest⟩

theorem coherent_of_mem_scanl_sample :
    sampleModel.Coherent ∧
      ∀ m' ∈ ((samplePlan.reversed.tokens ++ samplePlan.tokens).map Token.change).scanl
        Model.applyOrSkip sampleModel, m'.Coherent :=
  ⟨by decide +kernel, coherent_of_mem_scanl (by decide +kernel) (by decide +kernel)⟩

theorem Execution.coherent_step (d : Dialect) {x : Execution} (hx : x.model.Coherent) {t : Token}
    (ht : t.change.Proper) : (x.step d t).model.Coherent := by
  rw [Execution.step]
  split
  · split
    · exact hx
    · exact hx
  · split
    next edited happly => exact (hx.apply ht happly).compile
    next => exact hx

theorem Execution.coherent_run (d : Dialect) {ts : List Token}
    (hts : ∀ t ∈ ts, t.change.Proper) {x : Execution} (hx : x.model.Coherent) :
    (x.run d ts).model.Coherent := by
  induction ts generalizing x with
  | nil => exact hx
  | cons t ts ih =>
    obtain ⟨ht, hrest⟩ := List.forall_mem_cons.1 hts
    rw [Execution.run, List.foldl_cons]
    exact ih hrest (coherent_step d hx ht)

/-- A batch leaves a coherent model behind, also where some of its tokens fail. -/
theorem coherent_execute (d : Dialect) {ts : List Token} (hts : ∀ t ∈ ts, t.change.Proper)
    {m : Model} (hm : m.Coherent) : (execute d ts m).model.Coherent := by
  apply Execution.coherent_run d (fun t ht => hts t ((perm_sortTokens _).subset ht))
  exact hm

end SchemaDrift
