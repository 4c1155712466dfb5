/-
  SchemaDrift/Proofs/PlanMoves.lean
  =================================
  **A plan holds the moves from one of its models to the other, in both directions.**

  A plan reads its changes off differences of tables, of columns and of joins.  Here
  they are sorted out by what they are about: of the changes of a plan those about one
  table are the moves of this table (`slotMoves_read`), of the changes of a table those
  about one column are the moves of this column (`tableMoves_read`), and the joins
  within the scope differ by those that are dropped and added (`joinMoves_read`).

  Read forwards a plan leads from the imported model to the original one, and read
  backwards, every change turned into its dual, from the original to the imported one.
  Both readings are followed at once: `Direction.start` and `Direction.goal` are the
  models between which a direction leads, `Direction.read` is what it makes of the
  changes.
-/
import SchemaDrift.Plan
import SchemaDrift.Proofs.Matching
import SchemaDrift.Proofs.ModelMoves
import SchemaDrift.Proofs.Resolution

namespace SchemaDrift

/-! ### The two readings of a plan -/

namespace Direction

variable {α : Type}

/-- What the changes of a direction start from: the original is what the model is. -/
def start (d : Direction) (original imported : α) : α :=
  match d with
  | toModel => original
  | toDatabase => imported

def goal (d : Direction) (original imported : α) : α := d.opposite.start original imported

/-- Changes for the database as they are for a direction. -/
def read (d : Direction) (cs : List Change) : List Change :=
  match d with
  | toModel => cs.map Change.dual
  | toDatabase => cs

theorem start_of {P : α → Prop} {original imported : α} (horiginal : P original)
    (himported : P imported) (d : Direction) : P (d.start original imported) := by
  cases d
  · exact horiginal
  · exact himported

theorem goal_of {P : α → Prop} {original imported : α} (horiginal : P original)
    (himported : P imported) (d : Direction) : P (d.goal original imported) :=
  start_of horiginal himported d.opposite

theorem read_append (d : Direction) (cs ds : List Change) :
    d.read (cs ++ ds) = d.read cs ++ d.read ds := by
  cases d with
  | toModel => exact List.map_append
  | toDatabase => rfl

/-- A test that a change and its dual pass together may come before or after the reading. -/
theorem filter_read (d : Direction) {p : Change → Bool} (hp : ∀ c, p c.dual = p c)
    (cs : List Change) : (d.read cs).filter p = d.read (cs.filter p) := by
  cases d with
  | toModel =>
    rw [read, read, List.filter_map]
    refine congrArg (List.map Change.dual) (List.filter_congr fun c _ => hp c)
  | toDatabase => rfl

theorem perm_read (d : Direction) {cs ds : List Change} (h : cs.Perm ds) :
    (d.read cs).Perm (d.read ds) := by
  cases d with
  | toModel => exact h.map _
  | toDatabase => exact h

theorem forall_mem_read (d : Direction) {P : Change → Prop} (hP : ∀ c, P c → P c.dual)
    {cs : List Change} (h : ∀ c ∈ cs, P c) : ∀ c ∈ d.read cs, P c := by
  cases d with
  | toModel =>
    intro c hc
    obtain ⟨b, hb, rfl⟩ := List.mem_map.1 hc
    exact hP b (h b hb)
  | toDatabase => exact h

end Direction

/-! ### Filters that go by the name of a table -/

/-- A filter that decides a table by its folded name alone. -/
def Inclusion.GoesByName (f : Inclusion) (scope : String → Bool) : Prop :=
  ∀ catalog schema name, f.table catalog schema name = scope (foldName name)

namespace Inclusion.GoesByName

variable {f : Inclusion} {scope : String → Bool} (h : f.GoesByName scope)

include h

theorem tablesIn (m : Model) : m.tablesIn f = m.tables.filter fun t => scope t.matchKey :=
  List.filter_congr fun t _ => h t.catalog t.schema t.name

/-- The table of a side is judged alike whether the model has it or not. -/
theorem includesSide (m : Model) (j : Join) (s : Side) :
    f.includesSide m j s =
      (scope (foldName (j.entity s)) && (j.columns s).all (f.column (j.entity s))) := by
  rw [Inclusion.includesSide]
  congr 1
  split
  next t ht =>
    have hkey : t.matchKey = foldName (j.entity s) := keyOf_entryAt ht
    rw [includesTable, h, ← hkey]
    rfl
  next => exact h none none _

end Inclusion.GoesByName

/-- A filter that decides a table by its folded name alone and takes in every column. -/
structure Inclusion.IsScope (f : Inclusion) (scope : String → Bool) : Prop where
  table : ∀ catalog schema name, f.table catalog schema name = scope (foldName name)
  column : ∀ table name, f.column table name = true

theorem Inclusion.isScope_all : Inclusion.all.IsScope fun _ => true :=
  ⟨fun _ _ _ => rfl, fun _ _ => rfl⟩

theorem Inclusion.IsScope.goesByName {f : Inclusion} {scope : String → Bool} (h : f.IsScope scope) :
    f.GoesByName scope := h.table

theorem Table.columnsIn_all (t : Table) : t.columnsIn .all = t.columns :=
  List.filter_eq_self.2 fun _ _ => rfl

theorem Model.tablesIn_all (m : Model) : m.tablesIn .all = m.tables :=
  List.filter_eq_self.2 fun _ _ => rfl

namespace Inclusion.IsScope

variable {f : Inclusion} {scope : String → Bool} (h : f.IsScope scope)

include h

theorem columnsIn (t : Table) : t.columnsIn f = t.columns :=
  List.filter_eq_self.2 fun c _ => h.column t.name c.name

theorem tablesIn (m : Model) : m.tablesIn f = m.tables.filter fun t => scope t.matchKey :=
  h.goesByName.tablesIn m

theorem entriesOf_tablesIn {m : Model} (hm : (m.tables.map Table.matchKey).Nodup) (key : String) :
    entriesOf Table.matchKey key (m.tablesIn f) =
      (if scope key then m.tableAt key else none).toList := by
  have hdistinct : ((m.tablesIn f).map Table.matchKey).Nodup :=
    hm.sublist (List.filter_sublist.map _)
  rw [entriesOf_eq_toList hdistinct, h.tablesIn, entryAt_filter]

theorem includesJoin (m : Model) (j : Join) : f.includesJoin m j = j.isWithin scope := by
  have hside : ∀ s, f.includesSide m j s = scope (foldName (j.entity s)) := by
    intro s
    have hcolumns : (j.columns s).all (f.column (j.entity s)) = true :=
      List.all_eq_true.2 fun name _ => h.column _ name
    rw [h.goesByName.includesSide, hcolumns, Bool.and_true]
  rw [Inclusion.includesJoin, Join.isWithin, List.all_congr rfl]
  intro s
  exact hside s

theorem map_signature_joinsIn (m : Model) :
    (m.joinsIn f).map Join.signature = m.signaturesIn scope := by
  rw [Model.joinsIn, Model.signaturesIn, Model.anonymousJoins, List.filter_map, List.map_map]
  refine congrArg (List.map Join.signature) (List.filter_congr fun j _ => ?_)
  rw [h.includesJoin]
  rfl

end Inclusion.IsScope

theorem Model.joinsIn_all (m : Model) : m.joinsIn .all = m.joins := by
  refine List.filter_eq_self.2 fun j _ => ?_
  rw [Inclusion.isScope_all.includesJoin, Join.isWithin_iff]
  intro s
  rfl

/-! ### The changes of a table that both models have -/

section OneTable

variable {options : PlanOptions} {original imported : Table}

theorem read_columnChanges (d : Direction) (table : String) (wanted actual : Column) :
    d.read (columnChanges table wanted actual) =
      typeMove table wanted.name (d.start wanted actual) (d.goal wanted actual) ++
        nullMove table wanted.name (d.start wanted actual) (d.goal wanted actual) := by
  cases d with
  | toDatabase => rfl
  | toModel =>
    have htype : (if wanted.type = actual.type then []
        else [Change.setColumnType table wanted.name actual.type wanted.type]).map Change.dual =
        typeMove table wanted.name wanted actual := by
      rw [typeMove]
      by_cases h : wanted.type = actual.type
      · rw [if_pos h, if_pos h.symm]
        rfl
      · rw [if_neg h, if_neg (Ne.symm h)]
        rfl
    have hnull : (if wanted.nullable = actual.nullable then []
        else [Change.setNullability table wanted.name wanted.nullable]).map Change.dual =
        nullMove table wanted.name wanted actual := by
      rw [nullMove]
      cases wanted.nullable <;> cases actual.nullable <;> rfl
    change (columnChanges table wanted actual).map Change.dual = _
    rw [columnChanges, List.map_append, htype, hnull]
    rfl

theorem read_keyChanges (hkeys : options.skipKeys = false) (d : Direction) :
    d.read (keyChanges options original imported) =
      keyMove original.name (d.start original imported) (d.goal original imported) := by
  have hsame : sameNames original.primaryKey imported.primaryKey = true ↔
      original.foldedKey = imported.foldedKey := sameNames_iff
  rw [keyChanges, hkeys, Bool.false_or]
  by_cases h : original.foldedKey = imported.foldedKey
  · rw [if_pos (hsame.2 h)]
    cases d with
    | toDatabase => exact (if_pos h.symm).symm
    | toModel => exact (if_pos h).symm
  · rw [if_neg (mt hsame.1 h)]
    cases d with
    | toDatabase => exact (if_neg (Ne.symm h)).symm
    | toModel => exact (if_neg h).symm

theorem mem_columnChanges {table : String} {wanted actual : Column} {c : Change} :
    c ∈ columnChanges table wanted actual ↔
      (c = .setColumnType table wanted.name actual.type wanted.type ∧ wanted.type ≠ actual.type) ∨
        (c = .setNullability table wanted.name wanted.nullable ∧
          wanted.nullable ≠ actual.nullable) := by
  rw [columnChanges, List.mem_append]
  split <;> split <;> simp [*]

theorem kind_of_mem_columnChanges {table : String} {wanted actual : Column} {c : Change}
    (h : c ∈ columnChanges table wanted actual) :
    c.kind = .setColumnType ∨ c.kind = .setAllowNull ∨ c.kind = .setNotNull := by
  rcases mem_columnChanges.1 h with ⟨rfl, -⟩ | ⟨rfl, -⟩
  · exact .inl rfl
  · rw [Change.setNullability]
    split
    · exact .inr (.inl rfl)
    · exact .inr (.inr rfl)

theorem mem_keyChanges {c : Change} :
    c ∈ keyChanges options original imported ↔
      options.skipKeys = false ∧ original.foldedKey ≠ imported.foldedKey ∧
        c = .setPrimaryKey original.name imported.primaryKey original.primaryKey := by
  have hsame : sameNames original.primaryKey imported.primaryKey = true ↔
      original.foldedKey = imported.foldedKey := sameNames_iff
  simp only [keyChanges, Bool.or_eq_true, hsame]
  split
  next h => cases h <;> simp [*]
  next h =>
    obtain ⟨hkeys, hdiffer⟩ := not_or.1 h
    simp [hkeys, hdiffer]

theorem mem_tableChanges {c : Change} (h : c ∈ tableChanges options original imported) :
    c.kind.isInTable = true ∧ c.table = original.name := by
  simp only [tableChanges, List.mem_append, List.mem_map, List.mem_flatMap] at h
  rcases h with ((⟨column, _, rfl⟩ | ⟨column, _, rfl⟩) | ⟨⟨w, a⟩, _, hc⟩) | hc
  · exact ⟨rfl, rfl⟩
  · exact ⟨rfl, rfl⟩
  · rcases mem_columnChanges.1 hc with ⟨rfl, -⟩ | ⟨rfl, -⟩
    · exact ⟨rfl, rfl⟩
    · rw [Change.setNullability]
      split <;> exact ⟨rfl, rfl⟩
  · obtain ⟨-, -, rfl⟩ := mem_keyChanges.1 hc
    exact ⟨rfl, rfl⟩

theorem concerns_of_mem_columnChanges {table key : String} {wanted actual : Column} {c : Change}
    (h : c ∈ columnChanges table wanted actual) :
    c.concerns key = (wanted.matchKey == key) := by
  rcases mem_columnChanges.1 h with ⟨rfl, -⟩ | ⟨rfl, -⟩
  · rfl
  · rw [Change.setNullability]
    split <;> rfl

/-- Where every change of an item passes a test exactly when the item passes one, the changes
    that pass are those of the items that pass. -/
theorem filter_flatMap_of_forall {α : Type} {p : Change → Bool} {q : α → Bool}
    {f : α → List Change} {xs : List α} (h : ∀ x ∈ xs, ∀ c ∈ f x, p c = q x) :
    (xs.flatMap f).filter p = (xs.filter q).flatMap f := by
  induction xs with
  | nil => rfl
  | cons x xs ih =>
    obtain ⟨hx, hxs⟩ := List.forall_mem_cons.1 h
    rw [List.flatMap_cons, List.filter_append, ih hxs]
    by_cases hq : q x = true
    · rw [List.filter_cons_of_pos hq, List.flatMap_cons,
        List.filter_eq_self.2 fun c hc => (hx c hc).trans hq]
    · have hnone : (f x).filter p = [] := by
        refine List.filter_eq_nil_iff.2 fun c hc => ?_
        rw [hx c hc]
        exact hq
      rw [List.filter_cons_of_neg hq, hnone, List.nil_append]

theorem filter_concerns_flatMap (table key : String) (pairs : List (Column × Column)) :
    (pairs.flatMap fun (wanted, actual) => columnChanges table wanted actual).filter
        (Change.concerns key) =
      (pairs.filter fun pair => pair.1.matchKey == key).flatMap fun (wanted, actual) =>
        columnChanges table wanted actual :=
  filter_flatMap_of_forall fun _ _ _ hc => concerns_of_mem_columnChanges hc

/-- The changes of a table that concern a column: those of the column, and those of the key. -/
theorem filter_concerns_tableChanges {scope : String → Bool}
    (hscope : options.inclusion.IsScope scope)
    (horiginal : (original.columns.map Column.matchKey).Nodup)
    (himported : (imported.columns.map Column.matchKey).Nodup) (key : String) :
    (tableChanges options original imported).filter (Change.concerns key) =
      (match original.columnAt key, imported.columnAt key with
        | none, none => []
        | some wanted, none => [.addColumn original.name wanted]
        | none, some actual => [.dropColumn original.name actual]
        | some wanted, some actual => columnChanges original.name wanted actual) ++
      keyChanges options original imported := by
  have hadd : ∀ cs : List Column, (cs.map (Change.addColumn original.name)).filter
      (Change.concerns key) = (entriesOf Column.matchKey key cs).map (.addColumn original.name) :=
    fun cs => List.filter_map
  have hdrop : ∀ cs : List Column, (cs.map (Change.dropColumn original.name)).filter
      (Change.concerns key) = (entriesOf Column.matchKey key cs).map (.dropColumn original.name) :=
    fun cs => List.filter_map
  have hkey : (keyChanges options original imported).filter (Change.concerns key) =
      keyChanges options original imported := by
    refine List.filter_eq_self.2 fun c hc => ?_
    obtain ⟨-, -, rfl⟩ := mem_keyChanges.1 hc
    rfl
  have hwanted : entriesOf Column.matchKey key original.columns = (original.columnAt key).toList :=
    entriesOf_eq_toList horiginal key
  have hactual : entriesOf Column.matchKey key imported.columns = (imported.columnAt key).toList :=
    entriesOf_eq_toList himported key
  simp only [tableChanges, columnDifference, hscope.columnsIn, List.filter_append, hadd, hdrop,
    hkey, filter_concerns_flatMap, entriesOf_onlyOriginal, entriesOf_onlyImported, pairsOf_both,
    hwanted, hactual]
  cases original.columnAt key <;> cases imported.columnAt key <;> simp

/-- Under one key the changes of a table, read in either direction, are the moves of a column and
    what the key of the table brings. -/
theorem exists_cellMoves_read {scope : String → Bool} (hscope : options.inclusion.IsScope scope)
    (horiginal : (original.columns.map Column.matchKey).Nodup)
    (himported : (imported.columns.map Column.matchKey).Nodup) (d : Direction) (key : String) :
    ∃ moves, CellMoves original.name key ((d.start original imported).columnAt key)
        ((d.goal original imported).columnAt key) moves ∧
      (d.read (tableChanges options original imported)).filter (Change.concerns key) =
        moves ++ d.read (keyChanges options original imported) := by
  rw [d.filter_read (Change.concerns_dual key),
    filter_concerns_tableChanges hscope horiginal himported, d.read_append]
  refine ⟨_, ?_, rfl⟩
  have hstart : (d.start original imported).columnAt key =
      d.start (original.columnAt key) (imported.columnAt key) := by cases d <;> rfl
  have hgoal : (d.goal original imported).columnAt key =
      d.goal (original.columnAt key) (imported.columnAt key) := by cases d <;> rfl
  rw [hstart, hgoal]
  cases hw : original.columnAt key with
  | none =>
    cases imported.columnAt key with
    | none => cases d <;> exact .absent
    | some actual =>
      cases d with
      | toModel => exact .added actual
      | toDatabase => exact .dropped actual
  | some wanted =>
    cases imported.columnAt key with
    | none =>
      cases d with
      | toModel => exact .dropped wanted
      | toDatabase => exact .added wanted
    | some actual =>
      have hname : wanted.matchKey = key := keyOf_entryAt hw
      rw [read_columnChanges]
      cases d <;> exact .kept wanted.name hname _ _

theorem isInTable_of_mem_read (d : Direction) :
    ∀ c ∈ d.read (tableChanges options original imported), c.kind.isInTable = true := by
  refine d.forall_mem_read (fun c hc => ?_) fun c hc => (mem_tableChanges hc).1
  rw [Change.isInTable_dual]
  exact hc

/-- **The changes of a table, read in either direction, are its moves.** -/
theorem tableMoves_read {scope : String → Bool} (hkeys : options.skipKeys = false)
    (hscope : options.inclusion.IsScope scope)
    (horiginal : (original.columns.map Column.matchKey).Nodup)
    (himported : (imported.columns.map Column.matchKey).Nodup) (d : Direction) :
    TableMoves original.name (d.start original imported) (d.goal original imported)
      (d.read (tableChanges options original imported)) where
  inTable := isInTable_of_mem_read d
  cells key := by
    obtain ⟨moves, hmoves, heq⟩ := exists_cellMoves_read hscope horiginal himported d key
    rw [heq, read_keyChanges hkeys]
    exact ⟨moves, hmoves, .refl _⟩

end OneTable

/-! ### The changes of the tables of two models -/

section Tables

variable {options : PlanOptions} {original imported : Model}

/-- The changes of a plan that are not about joins, in the order in which they are found. -/
def slotChanges (options : PlanOptions) (original imported : Model) : List Change :=
  let tables := tableDifference options.inclusion original imported
  tables.onlyOriginal.map Change.addTable ++ tables.onlyImported.map Change.dropTable ++
    tables.both.flatMap fun (o, i) => tableChanges options o i

theorem mem_slotChanges {c : Change} :
    c ∈ slotChanges options original imported ↔
      (∃ t ∈ (tableDifference options.inclusion original imported).onlyOriginal, .addTable t = c) ∨
        (∃ t ∈ (tableDifference options.inclusion original imported).onlyImported,
          .dropTable t = c) ∨
        ∃ pair ∈ (tableDifference options.inclusion original imported).both,
          c ∈ tableChanges options pair.1 pair.2 := by
  simp only [slotChanges, List.mem_append, List.mem_map, List.mem_flatMap, or_assoc]

theorem isJoin_of_mem_slotChanges {c : Change} (h : c ∈ slotChanges options original imported) :
    c.kind.isJoin = false := by
  rcases mem_slotChanges.1 h with ⟨t, _, rfl⟩ | ⟨t, _, rfl⟩ | ⟨pair, _, hc⟩
  · rfl
  · rfl
  · have hkind := (mem_tableChanges hc).1
    cases c <;> first | rfl | cases hkind

variable {scope : String → Bool} (hscope : options.inclusion.IsScope scope)
  (horiginal : (original.tables.map Table.matchKey).Nodup)
  (himported : (imported.tables.map Table.matchKey).Nodup)

include hscope horiginal himported

theorem filter_isAt_slotChanges (key : String) :
    (slotChanges options original imported).filter (Change.isAt key) =
      if scope key then
        match original.tableAt key, imported.tableAt key with
        | none, none => []
        | some o, none => [.addTable o]
        | none, some i => [.dropTable i]
        | some o, some i => tableChanges options o i
      else [] := by
  have hadd : ∀ ts : List Table, (ts.map Change.addTable).filter (Change.isAt key) =
      (entriesOf Table.matchKey key ts).map .addTable := fun ts => List.filter_map
  have hdrop : ∀ ts : List Table, (ts.map Change.dropTable).filter (Change.isAt key) =
      (entriesOf Table.matchKey key ts).map .dropTable := fun ts => List.filter_map
  have hboth : ∀ pairs : List (Table × Table),
      (pairs.flatMap fun (o, i) => tableChanges options o i).filter (Change.isAt key) =
      (pairs.filter fun pair => pair.1.matchKey == key).flatMap fun (o, i) =>
        tableChanges options o i := by
    intro pairs
    refine filter_flatMap_of_forall fun pair _ c hc => ?_
    obtain ⟨hkind, htable⟩ := mem_tableChanges hc
    have hjoin : c.kind.isJoin = false := by cases c <;> first | rfl | cases hkind
    rw [Change.isAt, hjoin, htable]
    rfl
  simp only [slotChanges, tableDifference, List.filter_append, hadd, hdrop, hboth,
    entriesOf_onlyOriginal, entriesOf_onlyImported, pairsOf_both,
    hscope.entriesOf_tablesIn horiginal, hscope.entriesOf_tablesIn himported]
  cases scope key with
  | false => simp
  | true =>
    rw [if_pos rfl, if_pos rfl, if_pos rfl]
    generalize original.tableAt key = o
    generalize imported.tableAt key = i
    cases o <;> cases i <;> simp

end Tables

/-- **The changes about one table, read in either direction, are its moves.** -/
theorem slotMoves_read {options : PlanOptions} {scope : String → Bool}
    (hkeys : options.skipKeys = false) (hscope : options.inclusion.IsScope scope)
    {original imported : Model} (horiginal : original.WellFormed) (himported : imported.WellFormed)
    {key : String} (hkey : scope key = true) (d : Direction) :
    SlotMoves ((d.start original imported).tableAt key) ((d.goal original imported).tableAt key)
      ((d.read (slotChanges options original imported)).filter (Change.isAt key)) := by
  have hstart : (d.start original imported).tableAt key =
      d.start (original.tableAt key) (imported.tableAt key) := by cases d <;> rfl
  have hgoal : (d.goal original imported).tableAt key =
      d.goal (original.tableAt key) (imported.tableAt key) := by cases d <;> rfl
  rw [d.filter_read (Change.isAt_dual key), filter_isAt_slotChanges hscope
    horiginal.tables_distinct himported.tables_distinct, if_pos hkey, hstart, hgoal]
  cases ho : original.tableAt key with
  | none =>
    cases imported.tableAt key with
    | none => cases d <;> exact .absent
    | some i =>
      cases d with
      | toModel => exact .added i
      | toDatabase => exact .dropped i
  | some o =>
    cases hi : imported.tableAt key with
    | none =>
      cases d with
      | toModel => exact .dropped o
      | toDatabase => exact .added o
    | some i =>
      have hmoves := tableMoves_read hkeys hscope (horiginal.consistent ho).columns_distinct
        (himported.consistent hi).columns_distinct d
      cases d <;> exact .kept o.name hmoves

/-! ### The changes of the joins of two models -/

/-- Changes that drop some joins and add others, each up to its spelling. -/
structure JoinMoves (gone come : List Join) (cs : List Change) : Prop where
  kinds : ∀ c ∈ cs, c.kind.isJoin = true
  dropped : Change.droppedSignatures cs = gone.map Join.signature
  added : Change.addedSignatures cs = come.map Join.signature
  of_drop : ∀ k referencing, .dropJoin k referencing ∈ cs → ∃ j ∈ gone, k.SpelledAs j
  of_add : ∀ k referencing, .addJoin k referencing ∈ cs → ∃ j ∈ come, k.SpelledAs j

namespace JoinMoves

theorem filter_isAt {gone come : List Join} {cs : List Change} (h : JoinMoves gone come cs)
    (key : String) : cs.filter (Change.isAt key) = [] := by
  refine List.filter_eq_nil_iff.2 fun c hc => ?_
  simp [Change.isAt, h.kinds c hc]

theorem dual {gone come : List Join} {cs : List Change} (h : JoinMoves gone come cs) :
    JoinMoves come gone (cs.map Change.dual) where
  kinds c hc := by
    obtain ⟨b, hb, rfl⟩ := List.mem_map.1 hc
    have hkind := h.kinds b hb
    cases b <;> first | rfl | cases hkind
  dropped := by
    rw [← h.added, Change.droppedSignatures, List.filterMap_map]
    refine List.filterMap_congr fun c _ => ?_
    cases c <;> rfl
  added := by
    rw [← h.dropped, Change.addedSignatures, List.filterMap_map]
    refine List.filterMap_congr fun c _ => ?_
    cases c <;> rfl
  of_drop k referencing hk := by
    obtain ⟨b, hb, heq⟩ := List.mem_map.1 hk
    cases b <;> cases heq
    exact h.of_add _ _ hb
  of_add k referencing hk := by
    obtain ⟨b, hb, heq⟩ := List.mem_map.1 hk
    cases b <;> cases heq
    exact h.of_drop _ _ hb

theorem drops {js : List Join} {cs : List Change}
    (h : List.Forall₂ (fun j c => ∃ k referencing, c = .dropJoin k referencing ∧ k.SpelledAs j)
      js cs) : JoinMoves js [] cs := by
  induction h with
  | nil =>
    refine ⟨?_, rfl, rfl, ?_, ?_⟩
    · intro c hc
      cases hc
    · intro k referencing hk
      cases hk
    · intro k referencing hk
      cases hk
  | cons hhead _ ih =>
    obtain ⟨k, referencing, rfl, hspelled⟩ := hhead
    refine ⟨?_, ?_, ?_, ?_, ?_⟩
    · intro c hc
      rcases List.mem_cons.1 hc with rfl | hc
      · rfl
      · exact ih.kinds c hc
    · rw [List.map_cons, ← ih.dropped, ← hspelled.signature_eq, Change.droppedSignatures_cons]
    · rw [← ih.added, Change.addedSignatures_cons]
    · intro i side hi
      rcases List.mem_cons.1 hi with heq | hi
      · cases heq
        exact ⟨_, List.mem_cons_self, hspelled⟩
      · obtain ⟨j, hj, hi⟩ := ih.of_drop i side hi
        exact ⟨j, List.mem_cons_of_mem _ hj, hi⟩
    · intro i side hi
      rcases List.mem_cons.1 hi with heq | hi
      · cases heq
      · exact ih.of_add i side hi

theorem adds {js : List Join} {cs : List Change}
    (h : List.Forall₂ (fun j c => ∃ k referencing, c = .addJoin k referencing ∧ k.SpelledAs j)
      js cs) : JoinMoves [] js cs := by
  have hdual : List.Forall₂
      (fun j c => ∃ k referencing, c = .dropJoin k referencing ∧ k.SpelledAs j)
      js (cs.map Change.dual) := by
    rw [List.forall₂_map_right_iff]
    refine h.imp fun j c hc => ?_
    obtain ⟨k, referencing, rfl, hspelled⟩ := hc
    exact ⟨k, referencing, rfl, hspelled⟩
  have hback := (drops hdual).dual
  rw [List.map_map] at hback
  simpa [Function.comp_def] using hback

theorem append {js ks : List Join} {cs ds : List Change} (hcs : JoinMoves js [] cs)
    (hds : JoinMoves [] ks ds) : JoinMoves js ks (cs ++ ds) where
  kinds c hc := (List.mem_append.1 hc).elim (hcs.kinds c) (hds.kinds c)
  dropped := by
    rw [Change.droppedSignatures_append, hcs.dropped, hds.dropped]
    exact List.append_nil _
  added := by
    rw [Change.addedSignatures_append, hcs.added, hds.added]
    rfl
  of_drop k referencing hk := by
    rcases List.mem_append.1 hk with hk | hk
    · exact hcs.of_drop k referencing hk
    · obtain ⟨j, hj, _⟩ := hds.of_drop k referencing hk
      cases hj
  of_add k referencing hk := by
    rcases List.mem_append.1 hk with hk | hk
    · obtain ⟨j, hj, _⟩ := hcs.of_add k referencing hk
      cases hj
    · exact hds.of_add k referencing hk

/-- The joins of a well-formed model can be added wherever their tables are. -/
theorem additions {scope : String → Bool} {gone come : List Join} {cs : List Change}
    (h : JoinMoves gone come cs) {m : Model} (hm : m.WellFormed)
    (hcome : ∀ j ∈ come, j ∈ m.joins ∧ j.isWithin scope = true) :
    ∀ k referencing, .addJoin k referencing ∈ cs → k.Legible ∧ k.isWithin scope = true ∧
      ∀ s, (m.tableAt (foldName (k.entity s))).isSome = true := by
  intro k referencing hk
  obtain ⟨j, hj, hspelled⟩ := h.of_add k referencing hk
  obtain ⟨hjoin, hwithin⟩ := hcome j hj
  refine ⟨hspelled.legible (hm.legible hjoin), ?_, fun s => ?_⟩
  · rw [Join.isWithin_iff] at hwithin ⊢
    intro s
    rw [hspelled.entities]
    exact hwithin s
  · rw [hspelled.entities]
    exact hm.joins_complete j hjoin s

end JoinMoves

theorem dropJoinOf_eq_ok {j : Join} {imported original : Model} {c : Change} :
    Change.dropJoinOf j imported original = .ok c ↔
      ∃ k referencing, j.respell original = .ok k ∧ j.referencingSide imported = .ok referencing ∧
        c = .dropJoin k referencing := by
  simp only [Change.dropJoinOf, bind_eq_ok]
  constructor
  · rintro ⟨referencing, hside, k, hspelled, ⟨⟩⟩
    exact ⟨k, referencing, hspelled, hside, rfl⟩
  · rintro ⟨k, referencing, hspelled, hside, rfl⟩
    exact ⟨referencing, hside, k, hspelled, rfl⟩

theorem addJoinOf_eq_ok {j : Join} {m : Model} {c : Change} :
    Change.addJoinOf j m = .ok c ↔
      ∃ referencing, j.referencingSide m = .ok referencing ∧ c = .addJoin j referencing := by
  rw [Change.addJoinOf, map_eq_ok]
  simp only [eq_comm]

/-- The joins that a plan adds. -/
def joinsToAdd (options : PlanOptions) (original imported : Model) : List Join :=
  if options.skipJoins then [] else (joinDifference options.inclusion original imported).onlyOriginal

theorem joinsToAdd_of_not_skipped {options : PlanOptions} (hjoins : options.skipJoins = false)
    (original imported : Model) : joinsToAdd options original imported =
      (joinDifference options.inclusion original imported).onlyOriginal := by
  rw [joinsToAdd, hjoins]
  rfl

theorem mem_of_joinsToAdd {options : PlanOptions} {original imported : Model} {j : Join}
    (h : j ∈ joinsToAdd options original imported) :
    j ∈ (joinDifference options.inclusion original imported).onlyOriginal := by
  rw [joinsToAdd] at h
  split at h
  · cases h
  · exact h

theorem mem_of_onlyImported {f : Inclusion} {original imported : Model} {j : Join}
    (hj : j ∈ (joinDifference f original imported).onlyImported) : j ∈ imported.joinsIn f :=
  (perm_imports _ _ _).subset (List.mem_append_right _ hj)

theorem mem_of_onlyOriginal {f : Inclusion} {original imported : Model} {j : Join}
    (hj : j ∈ (joinDifference f original imported).onlyOriginal) : j ∈ original.joinsIn f :=
  (perm_originals _ _ _).subset (List.mem_append_right _ hj)

theorem joinChanges_eq_bind (options : PlanOptions) (original imported : Model) :
    joinChanges options original imported =
      ((joinDifference options.inclusion original imported).onlyImported.mapM
        (Change.dropJoinOf · imported original) >>= fun drops =>
      (joinsToAdd options original imported).mapM (Change.addJoinOf · original) >>= fun adds =>
        .ok (drops ++ adds)) := by
  rw [joinChanges, joinsToAdd]
  cases options.skipJoins with
  | false => rfl
  | true =>
    refine congrArg (_ >>= ·) (funext fun drops => ?_)
    exact congrArg Except.ok (List.append_nil drops).symm

theorem joinChanges_eq_ok {options : PlanOptions} {original imported : Model} {cs : List Change} :
    joinChanges options original imported = .ok cs ↔
      ∃ drops adds,
        List.Forall₂ (fun j c => Change.dropJoinOf j imported original = .ok c)
          (joinDifference options.inclusion original imported).onlyImported drops ∧
        List.Forall₂ (fun j c => Change.addJoinOf j original = .ok c)
          (joinsToAdd options original imported) adds ∧
        cs = drops ++ adds := by
  simp only [joinChanges_eq_bind, bind_eq_ok, mapM_eq_ok]
  constructor
  · rintro ⟨drops, hdrops, adds, hadds, ⟨⟩⟩
    exact ⟨drops, adds, hdrops, hadds, rfl⟩
  · rintro ⟨drops, adds, hdrops, hadds, rfl⟩
    exact ⟨drops, hdrops, adds, hadds, rfl⟩

theorem joinMoves_of_joinChanges {options : PlanOptions} {original imported : Model}
    {cs : List Change} (h : joinChanges options original imported = .ok cs) :
    JoinMoves (joinDifference options.inclusion original imported).onlyImported
      (joinsToAdd options original imported) cs := by
  obtain ⟨drops, adds, hdrops, hadds, rfl⟩ := joinChanges_eq_ok.1 h
  apply JoinMoves.append
  · apply JoinMoves.drops
    apply hdrops.imp
    intro j c hc
    obtain ⟨k, referencing, hspelled, -, rfl⟩ := dropJoinOf_eq_ok.1 hc
    exact ⟨k, referencing, rfl, respell_eq_ok hspelled⟩
  · apply JoinMoves.adds
    apply hadds.imp
    intro j c hc
    obtain ⟨referencing, -, rfl⟩ := addJoinOf_eq_ok.1 hc
    exact ⟨j, referencing, rfl, .refl j⟩

/-! ### Plans -/

def ambiguousKeys (f : Inclusion) (original imported : Model) : List String :=
  (tableDifference f original imported).ambiguous.map ("table " ++ ·) ++
    (tableDifference f original imported).both.flatMap (fun (o, i) => ambiguousColumns f o i) ++
    (joinDifference f original imported).ambiguous.map ("join " ++ ·)

theorem ambiguousKeys_eq_nil {f : Inclusion} {original imported : Model} :
    ambiguousKeys f original imported = [] ↔
      (tableDifference f original imported).ambiguous = [] ∧
        (∀ pair ∈ (tableDifference f original imported).both,
          (columnDifference f pair.1 pair.2).ambiguous = []) ∧
        (joinDifference f original imported).ambiguous = [] := by
  simp only [ambiguousKeys, ambiguousColumns, List.append_eq_nil_iff, List.map_eq_nil_iff,
    List.flatMap_eq_nil_iff, and_assoc]

/-- A plan checks both models, and nothing but the changes of the joins can fail after that. -/
theorem plan_eq_bind (options : PlanOptions) (original imported : Model) :
    plan options original imported =
      original.validateJoins >>= fun _ => imported.validateJoins >>= fun _ =>
        (joinChanges options original imported).map fun ofJoins =>
          { tokens := sortTokens
              ((slotChanges options original imported ++ ofJoins).map (Token.mk .toDatabase))
            ambiguous := ambiguousKeys options.inclusion original imported } := rfl

theorem plan_eq_ok {options : PlanOptions} {original imported : Model} {p : Plan} :
    plan options original imported = .ok p ↔
      original.validateJoins = .ok () ∧ imported.validateJoins = .ok () ∧
        ∃ ofJoins, joinChanges options original imported = .ok ofJoins ∧
          p = { tokens := sortTokens
                  ((slotChanges options original imported ++ ofJoins).map (Token.mk .toDatabase))
                ambiguous := ambiguousKeys options.inclusion original imported } := by
  simp only [plan_eq_bind, bind_eq_ok, map_eq_ok]
  constructor
  · rintro ⟨⟨⟩, horiginal, ⟨⟩, himported, ofJoins, hofJoins, rfl⟩
    exact ⟨horiginal, himported, ofJoins, hofJoins, rfl⟩
  · rintro ⟨horiginal, himported, ofJoins, hofJoins, rfl⟩
    exact ⟨(), horiginal, (), himported, ofJoins, hofJoins, rfl⟩

theorem ambiguous_of_plan {options : PlanOptions} {original imported : Model} {p : Plan}
    (h : plan options original imported = .ok p) :
    p.ambiguous = ambiguousKeys options.inclusion original imported := by
  obtain ⟨-, -, ofJoins, -, rfl⟩ := plan_eq_ok.1 h
  rfl

def Plan.changes (p : Plan) : List Change := p.tokens.map Token.change

theorem Plan.perm_changes {options : PlanOptions} {original imported : Model} {p : Plan}
    (h : plan options original imported = .ok p) :
    ∃ ofJoins, joinChanges options original imported = .ok ofJoins ∧
      p.changes.Perm (slotChanges options original imported ++ ofJoins) := by
  obtain ⟨-, -, ofJoins, hofJoins, rfl⟩ := plan_eq_ok.1 h
  refine ⟨ofJoins, hofJoins, ((perm_sortTokens _).map Token.change).trans ?_⟩
  rw [List.map_map]
  exact .of_eq (List.map_id _)

section Readings

variable {options : PlanOptions} {scope : String → Bool} {original imported : Model}

theorem joinMoves_read (hjoins : options.skipJoins = false) {cs : List Change}
    (h : joinChanges options original imported = .ok cs) (d : Direction) :
    JoinMoves
      (d.start (joinDifference options.inclusion original imported).onlyOriginal
        (joinDifference options.inclusion original imported).onlyImported)
      (d.goal (joinDifference options.inclusion original imported).onlyOriginal
        (joinDifference options.inclusion original imported).onlyImported)
      (d.read cs) := by
  have hmoves := joinMoves_of_joinChanges h
  rw [joinsToAdd_of_not_skipped hjoins] at hmoves
  cases d with
  | toModel => exact hmoves.dual
  | toDatabase => exact hmoves

/-- The signatures that a direction starts from and leads to: some are kept, the others are those
    of the joins on one side only. -/
theorem exists_kept_signatures (hscope : options.inclusion.IsScope scope)
    (original imported : Model) (d : Direction) :
    ∃ kept, ((d.start original imported).signaturesIn scope).Perm
        ((d.start (joinDifference options.inclusion original imported).onlyOriginal
          (joinDifference options.inclusion original imported).onlyImported).map Join.signature ++
            kept) ∧
      ((d.goal original imported).signaturesIn scope).Perm
        (kept ++ (d.goal (joinDifference options.inclusion original imported).onlyOriginal
          (joinDifference options.inclusion original imported).onlyImported).map
            Join.signature) := by
  let joins := joinDifference options.inclusion original imported
  have horiginals : (original.signaturesIn scope).Perm
      (joins.both.map (·.1.signature) ++ joins.onlyOriginal.map Join.signature) := by
    have hperm := (perm_originals Join.signature (original.joinsIn options.inclusion)
      (imported.joinsIn options.inclusion)).map Join.signature
    rw [hscope.map_signature_joinsIn, List.map_append, List.map_map] at hperm
    exact hperm.symm
  have himports : (imported.signaturesIn scope).Perm
      (joins.both.map (·.1.signature) ++ joins.onlyImported.map Join.signature) := by
    have hperm := (perm_imports Join.signature (original.joinsIn options.inclusion)
      (imported.joinsIn options.inclusion)).map Join.signature
    rw [hscope.map_signature_joinsIn, List.map_append, List.map_map] at hperm
    have hboth : joins.both.map (·.1.signature) = joins.both.map (·.2.signature) :=
      keys_both Join.signature _ _
    rw [hboth]
    exact hperm.symm
  cases d with
  | toModel => exact ⟨_, horiginals.trans List.perm_append_comm, himports⟩
  | toDatabase => exact ⟨_, himports.trans List.perm_append_comm, horiginals⟩

theorem mem_goal_of_onlyOne (hscope : options.inclusion.IsScope scope) (d : Direction) {j : Join}
    (h : j ∈ d.goal (joinDifference options.inclusion original imported).onlyOriginal
      (joinDifference options.inclusion original imported).onlyImported) :
    j ∈ (d.goal original imported).joins ∧ j.isWithin scope = true := by
  have hmem : ∀ {m : Model}, j ∈ m.joinsIn options.inclusion →
      j ∈ m.joins ∧ j.isWithin scope = true := by
    intro m hj
    obtain ⟨hjoin, hincluded⟩ := List.mem_filter.1 hj
    rw [hscope.includesJoin] at hincluded
    exact ⟨hjoin, hincluded⟩
  cases d with
  | toModel => exact hmem ((perm_imports _ _ _).subset (List.mem_append_right _ h))
  | toDatabase => exact hmem ((perm_originals _ _ _).subset (List.mem_append_right _ h))

/-- **A plan between well-formed models holds the moves from one to the other**, in both
    directions. -/
theorem modelMoves_of_plan (hjoins : options.skipJoins = false) (hkeys : options.skipKeys = false)
    (hscope : options.inclusion.IsScope scope) (horiginal : original.WellFormed)
    (himported : imported.WellFormed) {p : Plan} (h : plan options original imported = .ok p)
    (d : Direction) :
    ModelMoves scope (d.start original imported) (d.goal original imported) (d.read p.changes) := by
  obtain ⟨ofJoins, hofJoins, hperm⟩ := Plan.perm_changes h
  refine ModelMoves.perm ?_ (d.perm_read hperm)
  rw [d.read_append]
  have hmoves := joinMoves_read hjoins hofJoins d
  have hgoal : (d.goal original imported).WellFormed := d.goal_of horiginal himported
  have hslots : ∀ c ∈ d.read (slotChanges options original imported), c.kind.isJoin = false := by
    refine d.forall_mem_read (fun c hc => ?_) fun c hc => isJoin_of_mem_slotChanges hc
    rw [Change.isJoin_dual]
    exact hc
  have hisAt : ∀ key, (d.read (slotChanges options original imported) ++ d.read ofJoins).filter
      (Change.isAt key) =
      (d.read (slotChanges options original imported)).filter (Change.isAt key) := by
    intro key
    rw [List.filter_append, hmoves.filter_isAt, List.append_nil]
  refine ⟨fun key hkey => ?_, fun key hkey => ?_, ?_, fun k referencing hk => ?_⟩
  · rw [hisAt, d.filter_read (Change.isAt_dual key), filter_isAt_slotChanges hscope
      horiginal.tables_distinct himported.tables_distinct, hkey]
    cases d <;> rfl
  · rw [hisAt]
    exact slotMoves_read hkeys hscope horiginal himported hkey d
  · obtain ⟨kept, hstart, hgoal⟩ := exists_kept_signatures hscope original imported d
    refine ⟨kept, ?_, ?_⟩
    · rw [Change.droppedSignatures_append, Change.droppedSignatures_of_tables hslots,
        hmoves.dropped]
      exact hstart
    · rw [Change.addedSignatures_append, Change.addedSignatures_of_tables hslots, hmoves.added]
      exact hgoal
  · rcases List.mem_append.1 hk with hk | hk
    · cases hslots _ hk
    · exact hmoves.additions hgoal (fun j hj => mem_goal_of_onlyOne hscope d hj) k referencing hk

end Readings

end SchemaDrift
