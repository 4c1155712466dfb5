/-
  SchemaDrift/Proofs/Undo.lean
  ============================
  **Undoing a change on the model that it has changed.**

  The dual of a change looks for what it takes back by a name or by a signature.  What an
  addition brings has a name or a signature of its own, which is why the addition was not
  refused, so that it is found and nothing else is (`addition_undone`): no join touches the
  name of a new table, no entry of a key names a new column, and the only join that has the
  signature of a new one is the last, by whatever names its endpoints go since.

  A key, a type or the nullability of a column is set back to what it was.  A column that
  joins the key of its table excludes NULL from then on, and setting the key back leaves it
  so, since the change does not say what the column allowed before.  Nothing else is lost
  (`setting_undone`).
-/
import SchemaDrift.Proofs.Frame
import SchemaDrift.Proofs.JoinEdit

namespace SchemaDrift

@[simp] theorem Change.table_dual (c : Change) : c.dual.table = c.table := by cases c <;> rfl

/-! ### One item of a list -/

section OneItem

variable {α : Type} {test : α → Bool} {x : α} {xs : List α}

theorem find?_modifyFirst (h : xs.find? test = some x) (change : α → α)
    (hkept : test (change x) = true) :
    (modifyFirst test change xs).find? test = some (change x) := by
  obtain ⟨front, back, hfront, hx, rfl⟩ := exists_split_of_find? h
  rw [modifyFirst_append hfront hx, List.find?_append, List.find?_eq_none.2 (by simpa using hfront),
    Option.none_or, List.find?_cons_of_pos hkept]

/-- Two changes of one item are undone where the second takes the first back. -/
theorem modifyFirst_undone (h : xs.find? test = some x) {change back : α → α}
    (hkept : test (change x) = true) (hback : back (change x) = x) :
    modifyFirst test back (modifyFirst test change xs) = xs := by
  obtain ⟨front, rest, hfront, hx, rfl⟩ := exists_split_of_find? h
  rw [modifyFirst_append hfront hx, modifyFirst_append hfront hkept, hback]

/-- What stands behind items that do not pass is the first that does. -/
theorem find?_append_singleton (hnone : xs.find? test = none) (hx : test x = true) :
    (xs ++ [x]).find? test = some x := by
  rw [List.find?_append, hnone, Option.none_or, List.find?_cons_of_pos hx]

theorem eraseP_append_singleton (hnone : xs.find? test = none) (hx : test x = true) :
    (xs ++ [x]).eraseP test = xs := by
  rw [List.eraseP_append_right _ (List.find?_eq_none.1 hnone), List.eraseP_cons_of_pos hx,
    List.append_nil]

end OneItem

/-! ### Changes inside a table -/

section InTable

variable {m : Model} {name : String} {t t' : Table}

theorem sameName_of_findTable? (ht : m.findTable? name = some t) : sameName t.name name = true :=
  (List.find?_eq_some_iff_append.1 ht).1

theorem findTable?_replaceTable (ht : m.findTable? name = some t) (hname : t'.name = t.name) :
    (m.replaceTable name t').findTable? name = some t' := by
  have hkept : sameName t'.name name = true := hname ▸ sameName_of_findTable? ht
  exact find?_modifyFirst ht (fun _ => t') hkept

theorem replaceTable_replaceTable (ht : m.findTable? name = some t) (hname : t'.name = t.name)
    (t'' : Table) : (m.replaceTable name t').replaceTable name t'' = m.replaceTable name t'' := by
  have hkept : sameName t'.name name = true := hname ▸ sameName_of_findTable? ht
  have htwice : modifyFirst (fun u : Table => sameName u.name name) (fun _ => t'')
      (m.replaceTable name t').tables = (m.replaceTable name t'').tables := by
    refine modifyFirst_modifyFirst ?_ m.tables
    intro _ _
    exact hkept
  exact congrArg (fun tables : List Table => { m with tables }) htwice

/-- A table in place of itself makes no difference, and any other one of its name does. -/
theorem replaceTable_eq_self_iff (ht : m.findTable? name = some t) (hname : t'.name = t.name) :
    m.replaceTable name t' = m ↔ t' = t := by
  constructor
  · intro hsame
    have hfound := findTable?_replaceTable ht hname
    rw [hsame, ht] at hfound
    exact (Option.some.inj hfound).symm
  · rintro rfl
    obtain ⟨front, back, hfront, hx, hsplit⟩ := exists_split_of_find? ht
    rw [Model.replaceTable, Model.modifyTable, hsplit, modifyFirst_append hfront hx, ← hsplit]

/-- The dual of a change meets the table that the change has left. -/
theorem apply_dual_inTable {c : Change} (hc : c.kind.isInTable = true) {t'' : Table}
    (ht : m.findTable? c.table = some t) (hedit : c.editTable t = some t')
    (hback : c.dual.editTable t' = some t'') :
    c.dual.apply (m.replaceTable c.table t') = .ok (.done (m.replaceTable c.table t'')) := by
  have hname : t'.name = t.name := name_editTable hedit
  have hdual : c.dual.kind.isInTable = true := c.isInTable_dual.trans hc
  refine (apply_inTable_eq_ok hdual).2 ⟨t', t'', ?_, hback, ?_⟩
  · rw [Change.table_dual, findTable?_replaceTable ht hname]
  · rw [Change.table_dual, replaceTable_replaceTable ht hname]

end InTable

/-! ### Additions -/

def ChangeKind.isAddition : ChangeKind → Bool
  | addTable | addColumn | addJoin => true
  | _ => false

/-- A column that no entry of the key names is taken out as it was put in. -/
theorem editTable_dual_addColumn {t t' : Table} {table : String} {column : Column}
    (hkeys : ∀ name ∈ t.primaryKey, (t.findColumn? name).isSome = true)
    (hedit : (Change.addColumn table column).editTable t = some t') :
    (Change.dropColumn table column).editTable t' = some t := by
  simp only [Change.editTable] at hedit
  split at hedit
  next => cases hedit
  next hfree =>
    have hnone : t.columns.find? (fun c => sameName c.name column.name) = none :=
      Option.not_isSome_iff_eq_none.1 hfree
    have hown : sameName column.name column.name = true := sameName_iff.2 rfl
    have hkept : ∀ entry ∈ t.primaryKey, (!sameName entry column.name) = true := by
      intro entry hentry
      rw [Bool.not_eq_true', Bool.eq_false_iff]
      intro hsame
      have hfound := hkeys entry hentry
      rw [Table.findColumn?_eq, sameName_iff.1 hsame] at hfound
      exact hfree hfound
    cases hedit
    have hcolumn : (t.columns ++ [column]).find? (fun c => sameName c.name column.name) =
        some column := find?_append_singleton hnone hown
    have hcolumns : (t.columns ++ [column]).eraseP (fun c => sameName c.name column.name) =
        t.columns := eraseP_append_singleton hnone hown
    have hkey : (if column.key then t.primaryKey ++ [column.name] else t.primaryKey).filter
        (fun entry => !sameName entry column.name) = t.primaryKey := by
      cases column.key with
      | false => exact List.filter_eq_self.2 hkept
      | true =>
        rw [if_pos rfl, List.filter_append, List.filter_eq_self.2 hkept,
          List.filter_cons_of_neg (by simp [hown]), List.filter_nil, List.append_nil]
    rw [Change.editTable, Table.findColumn?, hcolumn, Option.map_some, Table.dropColumn, hcolumns,
      hkey]

section Addition

variable {m : Model} (hm : m.UpToDate)

include hm

theorem addTable_undone
    (hcomplete : ∀ j ∈ m.joins, ∀ s, (m.findTable? (j.entity s)).isSome = true)
    {t : Table} {edited : Edited Unit} (happly : (Change.addTable t).apply m = .ok edited) :
    ∃ undone, (Change.dropTable t).apply edited.model = .ok undone ∧ undone.model = m := by
  obtain ⟨hfree, rfl⟩ := apply_addTable_eq_ok.1 happly
  have hown : sameName t.name t.name = true := sameName_iff.2 rfl
  have hthere : (m.tables ++ [t]).find? (fun u => sameName u.name t.name) = some t :=
    find?_append_singleton hfree hown
  have htables : (m.tables ++ [t]).eraseP (fun u => sameName u.name t.name) = m.tables :=
    eraseP_append_singleton hfree hown
  -- a join that touches the name would have had no table
  have huntouched : ∀ j ∈ m.joins, (!j.touches t.name) = true := by
    intro j hj
    rw [Bool.not_eq_true', Bool.eq_false_iff]
    intro htouches
    obtain ⟨s, hs⟩ := Change.touches_iff.1 htouches
    have hfound := hcomplete j hj s
    rw [Model.findTable?_eq, hs, ← Model.findTable?_eq, hfree] at hfound
    cases hfound
  refine ⟨_, apply_dropTable_eq_ok.2 ⟨Option.isSome_of_eq_some hthere, rfl⟩, ?_⟩
  change Model.compile
    { m with tables := (m.tables ++ [t]).eraseP _, joins := m.joins.filter _ } = m
  rw [htables, List.filter_eq_self.2 huntouched]
  exact Model.compile_eq_self hm

theorem addJoin_undone {j : Join} {referencing : Side} {edited : Edited Unit}
    (happly : (Change.addJoin j referencing).apply m = .ok edited) :
    ∃ undone, (Change.dropJoin j referencing).apply edited.model = .ok undone ∧
      undone.model = m := by
  obtain ⟨-, hnew, rfl⟩ := apply_addJoin_eq_ok.1 happly
  let k := (j.nameEndpoints (takenNames (m.joins ++ [j]))).2
  have hjoins : (m.addJoin j).model.joins = m.joins ++ [k] := nameJoins_append hm.named _ [j]
  have hanonymous : k.anonymous = j.anonymous := (j.completedBy_nameEndpoints _).rest
  have hsignature : k.anonymous.signature = j.anonymous.signature :=
    congrArg Join.signature hanonymous
  have hthere : ∃ i ∈ (m.addJoin j).model.joins, i.signature = j.signature := by
    refine ⟨k, ?_, hsignature⟩
    rw [hjoins]
    exact List.mem_append_right _ (List.mem_singleton_self k)
  obtain ⟨position, removed, hmatch, hremoved, hfound⟩ := exists_matchingJoin hthere
  rw [hjoins] at hremoved
  -- of the joins with this signature there is none among the old ones
  have hlast : position = m.joins.length := by
    obtain ⟨hlt, hat⟩ := List.getElem?_eq_some_iff.1 hremoved
    rw [List.length_append, List.length_singleton] at hlt
    by_contra hother
    have hold : position < m.joins.length := by omega
    rw [List.getElem_append_left hold] at hat
    exact hnew removed (hat ▸ List.getElem_mem hold) hfound
  refine ⟨_, apply_dropJoin_eq_ok.2 ⟨position, removed, hmatch, hjoins ▸ hremoved, rfl⟩, ?_⟩
  change Model.compile { m with joins := (m.addJoin j).model.joins.eraseIdx position } = m
  rw [hjoins, hlast, List.eraseIdx_append_of_length_le (Nat.le_refl _), Nat.sub_self,
    List.eraseIdx_cons_zero, List.append_nil]
  exact Model.compile_eq_self hm

/-- **An addition to a model is undone without a trace**: tables, columns, keys, joins with their
    names, relationships and index are those that were there, in their order. -/
theorem addition_undone
    (hcomplete : ∀ j ∈ m.joins, ∀ s, (m.findTable? (j.entity s)).isSome = true)
    (hkeys : ∀ t ∈ m.tables, ∀ name ∈ t.primaryKey, (t.findColumn? name).isSome = true)
    {c : Change} (hc : c.kind.isAddition = true) {edited : Edited Unit}
    (happly : c.apply m = .ok edited) :
    ∃ undone, c.dual.apply edited.model = .ok undone ∧ undone.model = m := by
  cases c with
  | addTable t => exact addTable_undone hm hcomplete happly
  | addColumn table column =>
    obtain ⟨t, t', ht, hedit, rfl⟩ := (apply_inTable_eq_ok rfl).1 happly
    have hback := editTable_dual_addColumn (hkeys t (List.mem_of_find?_eq_some ht)) hedit
    exact ⟨_, apply_dual_inTable rfl ht hedit hback, (replaceTable_eq_self_iff ht rfl).2 rfl⟩
  | addJoin j referencing => exact addJoin_undone hm happly
  | _ => cases hc

end Addition

def page : Table where
  name := "PAGE"
  columns := [⟨"DRAWER", .integer, true, false⟩]

def artist : Table where
  name := "ARTIST"
  columns := [⟨"ID", .integer, false, true⟩, ⟨"NAME", .text, false, false⟩]
  primaryKey := ["ID"]

def pageJoin (column : String) : Join where
  entities := ⟨"PAGE", "Artist"⟩
  names := ⟨none, none⟩
  cardinality := .manyToOne
  dependentKey := .none
  condition := .single ⟨column, "ID"⟩

/-- Pages by the artist who drew them. -/
def comic : Model := .ofParts [artist, page] [pageJoin "DRAWER"]

/-- A second join of the two tables has other names in the model than it came with, and yet is the
    one that is taken out. -/
theorem addition_undone_comic :
    let j := pageJoin "INKER"
    ∃ edited undone : Edited Unit, (Change.addJoin j .left).apply comic = .ok edited ∧
      edited.model.joins.map Join.names =
        [⟨some "to_artist", some "to_page"⟩, ⟨some "to_artist1", some "to_page1"⟩] ∧
      (Change.dropJoin j .left).apply edited.model = .ok undone ∧ undone.model = comic := by
  intro j
  have happly : (Change.addJoin j .left).apply comic = .ok (comic.addJoin j) :=
    apply_addJoin_eq_ok.2 ⟨by decide +kernel, by decide +kernel, rfl⟩
  obtain ⟨undone, hundone, hmodel⟩ := addition_undone (Model.upToDate_compile _)
    (by decide +kernel) (by decide +kernel) rfl happly
  exact ⟨_, undone, happly, by decide +kernel, hundone, hmodel⟩

/-! ### Settings -/

namespace Change

/-- Whether a change sets something of a table, and what it says of the table before is so: its
    key, the type of a column, or that the column does not exclude or allow NULL already. -/
def Describes (c : Change) (t : Table) : Prop :=
  match c with
  | setPrimaryKey _ old _ => t.primaryKey = old
  | setColumnType _ name old _ => (t.findColumn? name).map Column.type = some old
  | setNotNull _ name => (t.findColumn? name).map Column.nullable = some true
  | setAllowNull _ name => (t.findColumn? name).map Column.nullable = some false
  | addTable _ | dropTable _ | addColumn _ _ | dropColumn _ _ | addJoin _ _ | dropJoin _ _ => False

theorem isInTable_of_describes {c : Change} {t : Table} (h : c.Describes t) :
    c.kind.isInTable = true := by
  cases c <;> first | rfl | cases h

/-- The key that a change sets. -/
def newKey : Change → List String
  | setPrimaryKey _ _ new => new
  | _ => []

end Change

/-- The table with NULL excluded from the columns that a key names. -/
def Table.excludeNull (key : List String) (t : Table) : Table :=
  { t with
    columns := t.columns.map fun c => { c with nullable := c.nullable && !namedIn key c.name } }

theorem excludeNull_eq_self_iff {key : List String} {t : Table} :
    t.excludeNull key = t ↔
      ∀ c ∈ t.columns, namedIn key c.name = true → c.nullable = false := by
  have hcolumns : t.excludeNull key = t ↔ (t.excludeNull key).columns = t.columns := by
    constructor
    · exact congrArg Table.columns
    · intro h
      exact congrArg (fun columns => { t with columns }) h
  have hcolumn : ∀ c : Column, ({ c with nullable := c.nullable && !namedIn key c.name } : Column) =
      c ↔ (namedIn key c.name = true → c.nullable = false) := by
    intro c
    rw [Column.mk.injEq]
    cases c.nullable <;> cases namedIn key c.name <;> simp
  rw [hcolumns, Table.excludeNull]
  nth_rewrite 2 [← List.map_id t.columns]
  rw [List.map_inj_left]
  exact forall₂_congr fun c _ => hcolumn c

theorem excludeNull_nil (t : Table) : t.excludeNull [] = t :=
  excludeNull_eq_self_iff.2 fun _ _ hnamed => nomatch hnamed

/-- A column that is changed in place is found where it was, and is changed back there. -/
theorem modifyColumn_undone {t : Table} {name : String} {c : Column}
    (hc : t.findColumn? name = some c) (change back : Column → Column)
    (hname : (change c).name = c.name) (hback : back (change c) = c) :
    (t.modifyColumn name change).findColumn? name = some (change c) ∧
      (t.modifyColumn name change).modifyColumn name back = t := by
  have hpasses : sameName c.name name = true := (List.find?_eq_some_iff_append.1 hc).1
  have hkept : sameName (change c).name name = true := hname ▸ hpasses
  refine ⟨find?_modifyFirst hc change hkept, ?_⟩
  exact congrArg (fun columns => { t with columns }) (modifyFirst_undone hc hkept hback)

/-- Setting one key and then another leaves the flags of the second one, and excludes NULL where
    either has a column. -/
theorem markKey_markKey {t : Table} (ht : t.Consistent) (new : List String) {c : Column}
    (hc : c ∈ t.columns) : Table.markKey t.primaryKey (Table.markKey new c) =
      { c with nullable := c.nullable && !namedIn new c.name } := by
  have hflag : c.key = namedIn t.primaryKey c.name := ht.key_flagged c hc
  have hnull : c.key = true → c.nullable = false := ht.key_notNull c hc
  rcases c with ⟨name, type, nullable, key⟩
  dsimp only at hflag hnull
  rw [Table.markKey, Table.markKey]
  cases hnew : namedIn new name <;> cases hold : namedIn t.primaryKey name <;>
    simp_all [Column.asKey]

theorem editTable_dual_setPrimaryKey {t t' : Table} (ht : t.Consistent) {table : String}
    {new : List String}
    (hedit : (Change.setPrimaryKey table t.primaryKey new).editTable t = some t') :
    (Change.setPrimaryKey table new t.primaryKey).editTable t' = some (t.excludeNull new) := by
  obtain rfl : t' = t.setPrimaryKey new := by
    simp only [Change.editTable] at hedit
    split at hedit
    · exact (Option.some.inj hedit).symm
    · cases hedit
  have hfound : (t.primaryKey.all fun name => ((t.setPrimaryKey new).findColumn? name).isSome) =
      true := by
    refine List.all_eq_true.2 fun name hname => ?_
    change (entryAt Column.matchKey (t.columns.map (Table.markKey new)) _).isSome = true
    rw [entryAt_map (matchKey_markKey new), Option.isSome_map]
    exact ht.key_found name hname
  rw [Change.editTable, if_pos hfound, Table.setPrimaryKey, Table.setPrimaryKey, List.map_map]
  exact congrArg (fun columns => some { t with columns })
    (List.map_congr_left fun c hc => markKey_markKey ht new hc)

/-- What a change has set in a table is set back, but for NULL in the columns of a new key. -/
theorem editTable_dual_setting {c : Change} {t t' : Table} (ht : t.Consistent)
    (hdescribes : c.Describes t) (hedit : c.editTable t = some t') :
    c.dual.editTable t' = some (t.excludeNull c.newKey) := by
  cases c with
  | setPrimaryKey table old new =>
    obtain rfl : t.primaryKey = old := hdescribes
    exact editTable_dual_setPrimaryKey ht hedit
  | setColumnType table name old new =>
    obtain ⟨x, hx, rfl⟩ := Option.map_eq_some_iff.1 hdescribes
    rw [Change.editTable, hx, Option.map_some] at hedit
    obtain rfl := Option.some.inj hedit
    obtain ⟨hfound, hback⟩ := modifyColumn_undone hx (fun c => { c with type := new })
      (fun c => { c with type := x.type }) rfl rfl
    rw [Change.dual, Change.editTable, hfound, Option.map_some, hback]
    exact congrArg some (excludeNull_nil t).symm
  | setNotNull table name =>
    obtain ⟨x, hx, hnull⟩ := Option.map_eq_some_iff.1 hdescribes
    rw [Change.editTable, hx, Option.map_some] at hedit
    obtain rfl := Option.some.inj hedit
    obtain ⟨hfound, hback⟩ := modifyColumn_undone hx (fun c => { c with nullable := false })
      (fun c => { c with nullable := true }) rfl (hnull ▸ rfl)
    -- a column of the key would not have allowed NULL
    have hfree : ¬ x.key = true := by
      intro hkey
      have hexcluded := ht.key_notNull x (List.mem_of_find?_eq_some hx) hkey
      exact Bool.false_ne_true (hexcluded.symm.trans hnull)
    rw [Change.dual, Change.editTable, hfound, Option.bind_some, if_neg hfree, hback]
    exact congrArg some (excludeNull_nil t).symm
  | setAllowNull table name =>
    obtain ⟨x, hx, hnull⟩ := Option.map_eq_some_iff.1 hdescribes
    rw [Change.editTable, hx, Option.bind_some] at hedit
    split at hedit
    next => cases hedit
    next =>
      obtain rfl := Option.some.inj hedit
      obtain ⟨hfound, hback⟩ := modifyColumn_undone hx (fun c => { c with nullable := true })
        (fun c => { c with nullable := false }) rfl (hnull ▸ rfl)
      rw [Change.dual, Change.editTable, hfound, Option.map_some, hback]
      exact congrArg some (excludeNull_nil t).symm
  | addTable t => cases hdescribes
  | dropTable t => cases hdescribes
  | addColumn table column => cases hdescribes
  | dropColumn table column => cases hdescribes
  | addJoin j referencing => cases hdescribes
  | dropJoin j referencing => cases hdescribes

/-- **A setting that is replaced by another is set back**: the model is the one that there was,
    except that the columns named by a new key exclude NULL.  So it is the same again exactly if
    none of them allowed it. -/
theorem setting_undone {m : Model} (hm : ∀ t ∈ m.tables, t.Consistent) {c : Change} {t : Table}
    (ht : m.findTable? c.table = some t) (hdescribes : c.Describes t) {edited : Edited Unit}
    (happly : c.apply m = .ok edited) :
    ∃ undone, c.dual.apply edited.model = .ok undone ∧
      undone.model = m.replaceTable c.table (t.excludeNull c.newKey) ∧
      (undone.model = m ↔
        ∀ x ∈ t.columns, namedIn c.newKey x.name = true → x.nullable = false) := by
  have hc : c.kind.isInTable = true := Change.isInTable_of_describes hdescribes
  obtain ⟨found, t', hfound, hedit, rfl⟩ := (apply_inTable_eq_ok hc).1 happly
  obtain rfl : t = found := Option.some.inj (ht.symm.trans hfound)
  have hback := editTable_dual_setting (hm t (List.mem_of_find?_eq_some ht)) hdescribes hedit
  have hsame : m.replaceTable c.table (t.excludeNull c.newKey) = m ↔ t.excludeNull c.newKey = t :=
    replaceTable_eq_self_iff ht rfl
  exact ⟨_, apply_dual_inTable hc ht hedit hback, rfl, hsame.trans excludeNull_eq_self_iff⟩

theorem setting_undone_comic :
    let c : Change := .setPrimaryKey "artist" ["ID"] ["name", "ID"]
    ∃ edited undone : Edited Unit, c.apply comic = .ok edited ∧
      edited.model.tables.map Table.primaryKey = [["name", "ID"], []] ∧
      c.dual.apply edited.model = .ok undone ∧ undone.model = comic := by
  intro c
  have hfound : comic.findTable? c.table = some artist := by decide +kernel
  have happly : c.apply comic = .ok (.done (comic.replaceTable c.table
      (artist.setPrimaryKey ["name", "ID"]))) :=
    (apply_inTable_eq_ok rfl).2 ⟨artist, _, hfound, by decide +kernel, rfl⟩
  obtain ⟨undone, hundone, -, hsame⟩ := setting_undone (by decide +kernel) hfound rfl happly
  exact ⟨_, undone, happly, by decide +kernel, hundone, hsame.2 (by decide +kernel)⟩

/-- The only column of a table joins its key, and has to exclude NULL for good. -/
theorem setting_leavesNotNull :
    let m : Model := .ofParts [page] []
    let c : Change := .setPrimaryKey "PAGE" [] ["DRAWER"]
    (m.tables.map Table.matchKey).Nodup ∧ (∀ t ∈ m.tables, t.Consistent) ∧
      m.findTable? c.table = some page ∧ c.Describes page ∧
      ∃ edited undone : Edited Unit, c.apply m = .ok edited ∧
        c.dual.apply edited.model = .ok undone ∧ undone.model.tables ≠ m.tables :=
  ⟨by decide +kernel, by decide +kernel, rfl, rfl, _, _, rfl, rfl, by decide +kernel⟩

end SchemaDrift
