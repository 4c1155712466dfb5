/-
  SchemaDrift/Proofs/JoinColumns.lean
  ===================================
  **Which changes leave a join over columns that are not there.**

  A join resolves in a model that has its tables and, in them, its columns
  (`Join.ResolvesIn`).  A table that is dropped takes its joins along.  Inside a table
  a change edits what is there under each key, and one kind of edit alone leaves nothing
  where a column was: dropping it (`isSome_of_editColumn`).  The column goes from its table
  and from the primary key, but the joins over it stay, and the check of the joins, which
  looks for their tables only, has nothing to say against them.

  So after a change just those joins do not resolve that it strands
  (`resolvesIn_iff_of_apply`).  Main statements: `resolvesIn_of_apply` for one change, and
  `resolvesIn_of_mem_scanl` for a run of them.
-/
import SchemaDrift.Proofs.Coherence
import SchemaDrift.Proofs.Refusal
import SchemaDrift.Proofs.Undo

namespace SchemaDrift

/-! ### What is asked -/

/-- A model whose tables have different names, as have the columns of each of them. -/
structure Model.NamesUnique (m : Model) : Prop where
  tables : (m.tables.map Table.matchKey).Nodup
  columns : ∀ t ∈ m.tables, (t.columns.map Column.matchKey).Nodup

theorem Model.namesUnique_iff {m : Model} :
    m.NamesUnique ↔ (m.tables.map Table.matchKey).Nodup ∧
      ∀ t ∈ m.tables, (t.columns.map Column.matchKey).Nodup :=
  ⟨fun h => ⟨h.1, h.2⟩, fun h => ⟨h.1, h.2⟩⟩

instance (m : Model) : Decidable m.NamesUnique := decidable_of_iff _ Model.namesUnique_iff.symm

theorem Model.Coherent.namesUnique {m : Model} (h : m.Coherent) : m.NamesUnique :=
  ⟨h.tables_distinct, fun t ht => (h.tables_consistent t ht).columns_distinct⟩

namespace Change

/-- Whether a change takes the column under a key out of the table that it is about. -/
def takes (key : String) : Change → Bool
  | dropColumn _ column => column.matchKey == key
  | _ => false

/-- Whether a change takes a column of a join out of its table. -/
def strands (c : Change) (j : Join) : Bool :=
  Side.both.any fun s =>
    sameName c.table (j.entity s) && (j.columns s).any fun name => c.takes (foldName name)

theorem strands_eq_false {c : Change} {j : Join} :
    c.strands j = false ↔ ∀ s, foldName c.table = foldName (j.entity s) →
      ∀ name ∈ j.columns s, c.takes (foldName name) = false := by
  rw [strands, List.any_eq_false, Side.forall_mem_both]
  simp only [Bool.not_eq_true, Bool.and_eq_false_imp, sameName_iff, List.any_eq_false]

theorem strands_of_isJoin {c : Change} (h : c.kind.isJoin = true) (j : Join) :
    c.strands j = false := by
  rw [strands_eq_false]
  intro s _ name _
  cases c with
  | addJoin k referencing => rfl
  | dropJoin k referencing => rfl
  | _ => cases h

theorem spares_of_strands {c : Change} {j : Join} (h : c.strands j = true) :
    c.spares j = true := by
  cases c with
  | dropTable t =>
    have hnone : (dropTable t).strands j = false := strands_eq_false.2 fun _ _ _ _ => rfl
    rw [hnone] at h
    cases h
  | _ => rfl

end Change

/-! ### Columns -/

/-- A column that is there is there afterwards, unless the change takes it. -/
theorem isSome_of_editColumn {c : Change} {key : String} {x : Column} {next : Option Column}
    (h : c.editColumn key (some x) = some next) : next.isSome = !c.takes key := by
  by_cases hconcerns : c.concerns key = true
  · have hstays : c.kind.isInPlace = true → next.isSome = true := by
      intro hinPlace
      rcases editColumn_inPlace hinPlace key x with ⟨hrefused, -, -⟩ | ⟨y, hy, -⟩
      · rw [hrefused] at h
        cases h
      · rw [hy] at h
        exact Option.some.inj h ▸ rfl
    cases c with
    | addColumn table column =>
      rw [Change.editColumn, if_pos (beq_iff_eq.1 hconcerns)] at h
      cases h
    | dropColumn table column =>
      rw [Change.editColumn, if_pos (beq_iff_eq.1 hconcerns)] at h
      obtain rfl := Option.some.inj h
      exact (congrArg Bool.not hconcerns).symm
    | setPrimaryKey table old new =>
      obtain rfl := Option.some.inj h
      rfl
    | setColumnType table column old new => exact hstays rfl
    | setNotNull table column => exact hstays rfl
    | setAllowNull table column => exact hstays rfl
    | _ => cases hconcerns
  · rw [Bool.not_eq_true] at hconcerns
    rw [editColumn_of_not_concerns hconcerns] at h
    obtain rfl := Option.some.inj h
    cases c with
    | dropColumn table column => exact (congrArg Bool.not hconcerns).symm
    | _ => rfl

namespace Model

theorem hasColumns_congr {m m' : Model} {table : String}
    (h : m'.tableAt (foldName table) = m.tableAt (foldName table)) (columns : List String) :
    m'.hasColumns table columns = m.hasColumns table columns := by
  rw [hasColumns, hasColumns, findTable?_eq, findTable?_eq, h]

/-- Of the columns that a table has, a change inside it leaves those that it does not take. -/
theorem hasColumns_of_editTable {m m' : Model} {c : Change} (hkind : c.kind.isInTable = true)
    {table : String} {columns : List String} {t t' : Table}
    (hdistinct : (t.columns.map Column.matchKey).Nodup)
    (ht : m.tableAt (foldName table) = some t) (ht' : m'.tableAt (foldName table) = some t')
    (hedit : c.editTable t = some t') (h : m.hasColumns table columns = true) :
    m'.hasColumns table columns = true ↔ ∀ name ∈ columns, c.takes (foldName name) = false := by
  obtain ⟨result, hresult, hedits⟩ := exists_editsTo_of_editTable hdistinct hkind hedit
  obtain ⟨_, hfound, hcolumns⟩ := hasColumns_iff.1 h
  obtain rfl := Option.some.inj (hfound.symm.trans ht)
  have hkept : ∀ name ∈ columns, (t'.columnAt (foldName name)).isSome =
      !c.takes (foldName name) := by
    intro name hname
    obtain ⟨x, hx⟩ := Option.isSome_iff_exists.1 (hcolumns name hname)
    rw [hedits.columns]
    apply isSome_of_editColumn (x := x)
    rw [← hx]
    exact hresult (foldName name)
  rw [hasColumns_iff]
  constructor
  · rintro ⟨_, hfound', hthere⟩ name hname
    obtain rfl := Option.some.inj (hfound'.symm.trans ht')
    simpa [hkept name hname] using hthere name hname
  · intro htaken
    refine ⟨t', ht', fun name hname => ?_⟩
    rw [hkept name hname, htaken name hname]
    rfl

end Model

/-! ### One change -/

section OneChange

variable {m : Model} (hunique : m.NamesUnique) {c : Change} {j : Join}

theorem resolvesIn_iff_of_sides {m' : Model}
    (h : ∀ s, m'.hasColumns (j.entity s) (j.columns s) = true ↔
      (foldName c.table = foldName (j.entity s) →
        ∀ name ∈ j.columns s, c.takes (foldName name) = false)) :
    j.ResolvesIn m' ↔ c.strands j = false := by
  rw [Change.strands_eq_false]
  exact forall_congr' h

include hunique

/-- A join that a change about tables spares resolves afterwards unless it is stranded. -/
theorem resolvesIn_iff_of_slotStep (hj : j.ResolvesIn m) (hkind : c.kind.isJoin = false)
    (hspared : c.spares j = true) {slot : Option Table} {m' : Model}
    (hslot : c.editSlot (m.tableAt (foldName c.table)) = some slot) (hstep : SlotStep c m slot m') :
    j.ResolvesIn m' ↔ c.strands j = false := by
  apply resolvesIn_iff_of_sides
  intro s
  have htable := hstep.tables (foldName (j.entity s))
  by_cases hhere : foldName c.table = foldName (j.entity s)
  · rw [if_pos hhere] at htable
    rw [hhere] at hslot
    obtain ⟨t, ht, -⟩ := Model.hasColumns_iff.1 (hj s)
    rcases editSlot_cases hkind hslot with
      ⟨_, t', hinTable, hfound, hedit, rfl⟩ | ⟨_, -, hfree, -⟩ | ⟨dropped, old, rfl, -, -⟩
    · obtain rfl := Option.some.inj (hfound.symm.trans ht)
      rw [Model.hasColumns_of_editTable hinTable (hunique.columns _ (mem_of_entryAt ht)) ht htable
        hedit (hj s)]
      exact ⟨fun h _ => h, fun h => h hhere⟩
    · rw [ht] at hfree
      cases hfree
    · -- the joins of a table that is dropped are not spared
      exact absurd hhere.symm (Change.spares_dropTable.1 hspared s)
  · rw [if_neg hhere] at htable
    rw [Model.hasColumns_congr htable]
    exact iff_of_true (hj s) fun h => absurd h hhere

/-- The joins after a change are those that it spares and the one that it adds; which of them
    resolve is told by which of them it strands. -/
theorem resolvesIn_iff_of_apply (hresolve : ∀ j ∈ m.joins, j.ResolvesIn m)
    (hadded : ∀ j s, c = .addJoin j s → j.ResolvesIn m) {edited : Edited Unit}
    (happly : c.apply m = .ok edited) :
    ∀ k ∈ edited.model.joins, k.ResolvesIn edited.model ↔ c.strands k = false := by
  have hresolve' : ∀ j ∈ m.anonymousJoins, j.ResolvesIn m :=
    (Model.forall_anonymousJoins fun _ => .rfl).2 hresolve
  rw [← Model.forall_anonymousJoins (P := fun k => k.ResolvesIn edited.model ↔ c.strands k = false)
    fun _ => .rfl]
  intro k hk
  rcases Bool.eq_false_or_eq_true c.kind.isJoin with hkind | hkind
  · rw [iff_true_right (Change.strands_of_isJoin hkind k)]
    cases c with
    | addJoin j referencing =>
      obtain ⟨-, -, rfl⟩ := apply_addJoin_eq_ok.1 happly
      rw [anonymousJoins_addJoin, List.mem_append, List.mem_singleton] at hk
      rcases hk with hold | rfl
      · exact hresolve' k hold
      · exact hadded j referencing rfl
    | dropJoin j referencing =>
      obtain ⟨position, removed, -, -, rfl⟩ := apply_dropJoin_eq_ok.1 happly
      change k ∈ (Model.compile _).anonymousJoins at hk
      rw [Model.anonymousJoins_compile] at hk
      have hsublist := (List.eraseIdx_sublist m.joins position).map Join.anonymous
      exact hresolve' k (hsublist.subset hk)
    | _ => cases hkind
  · obtain ⟨slot, hslot, hstep⟩ := slotStep_of_apply hunique.tables hkind happly
    rw [hstep.joins] at hk
    obtain ⟨hold, hspared⟩ := List.mem_filter.1 hk
    exact resolvesIn_iff_of_slotStep hunique (hresolve' k hold) hkind hspared hslot hstep

/-- **After a change every join resolves but those that are over a column that it drops.**  So all
    of them resolve exactly if no join was over such a column. -/
theorem resolvesIn_of_apply (hresolve : ∀ j ∈ m.joins, j.ResolvesIn m)
    (hadded : ∀ j s, c = .addJoin j s → j.ResolvesIn m) {edited : Edited Unit}
    (happly : c.apply m = .ok edited) :
    (∀ k ∈ edited.model.joins, k.ResolvesIn edited.model ↔ c.strands k = false) ∧
      ((∀ k ∈ edited.model.joins, k.ResolvesIn edited.model) ↔
        ∀ j ∈ m.joins, c.strands j = false) := by
  have hjoins := resolvesIn_iff_of_apply hunique hresolve hadded happly
  refine ⟨hjoins, ?_⟩
  rw [forall₂_congr hjoins]
  rcases Bool.eq_false_or_eq_true c.kind.isJoin with hkind | hkind
  · exact iff_of_true (fun k _ => Change.strands_of_isJoin hkind k)
      fun j _ => Change.strands_of_isJoin hkind j
  · obtain ⟨slot, -, hstep⟩ := slotStep_of_apply hunique.tables hkind happly
    -- no join goes whose column goes, and none comes
    have hsame : ∀ k : Join, c.strands k = true →
        (k ∈ edited.model.anonymousJoins ↔ k ∈ m.anonymousJoins) := by
      intro k hk
      rw [hstep.joins, List.mem_filter]
      exact and_iff_left (Change.spares_of_strands hk)
    have hanonymous : ∀ j : Join, c.strands j.anonymous = false ↔ c.strands j = false :=
      fun _ => .rfl
    rw [← Model.forall_anonymousJoins hanonymous, ← Model.forall_anonymousJoins hanonymous]
    refine forall_congr' fun k => ?_
    cases hk : c.strands k with
    | false => exact iff_of_true (fun _ => rfl) fun _ => rfl
    | true => rw [hsame k hk]

end OneChange

/-- A column that no join is over may be dropped. -/
theorem resolvesIn_of_apply_comic :
    comic.NamesUnique ∧ (∀ j ∈ comic.joins, j.ResolvesIn comic) ∧
      ∃ edited : Edited Unit,
        (Change.dropColumn "artist" ⟨"NAME", .text, false, false⟩).apply comic = .ok edited ∧
        edited.model.tables.map (·.columns.length) = [1, 1] ∧ edited.model.joins = comic.joins ∧
        ∀ k ∈ edited.model.joins, k.ResolvesIn edited.model := by
  have hunique : comic.NamesUnique := by decide +kernel
  have hresolve : ∀ j ∈ comic.joins, j.ResolvesIn comic := by decide +kernel
  have happly : (Change.dropColumn "artist" ⟨"NAME", .text, false, false⟩).apply comic =
      .ok (.done (comic.replaceTable "artist" (artist.dropColumn "NAME"))) :=
    (apply_inTable_eq_ok rfl).2 ⟨artist, _, by decide +kernel, by decide +kernel, rfl⟩
  refine ⟨hunique, hresolve, _, happly, by decide +kernel, rfl, ?_⟩
  apply (resolvesIn_of_apply hunique hresolve (fun _ _ hadd => by cases hadd) happly).2.2
  decide +kernel

/-- A column that a join is over is dropped all the same.  The check of the joins finds nothing
    wrong, and the join does not resolve any more.  A pull that skips joins comes to this where
    the database has not got the column. -/
theorem stranded_comic :
    comic.NamesUnique ∧ (∀ j ∈ comic.joins, j.ResolvesIn comic) ∧
      (∃ edited : Edited Unit,
        (Change.dropColumn "PAGE" ⟨"DRAWER", .integer, true, false⟩).apply comic = .ok edited ∧
        edited.model.validateJoins = .ok () ∧
        ∃ j ∈ edited.model.joins, ¬ j.ResolvesIn edited.model ∧
          j.resolve edited.model = .error (.unresolvedAttribute "PAGE" "DRAWER")) ∧
      (plan { skipJoins := true } comic (.ofParts [artist, page.dropColumn "DRAWER"] [])).map
          (fun p => p.reversed.tokens) =
        .ok [⟨.toModel, .dropColumn "PAGE" ⟨"DRAWER", .integer, true, false⟩⟩] := by
  have happly : (Change.dropColumn "PAGE" ⟨"DRAWER", .integer, true, false⟩).apply comic =
      .ok (.done (comic.replaceTable "PAGE" (page.dropColumn "DRAWER"))) :=
    (apply_inTable_eq_ok rfl).2 ⟨page, _, by decide +kernel, by decide +kernel, rfl⟩
  refine ⟨by decide +kernel, by decide +kernel, ⟨_, happly, by decide +kernel, ?_⟩, ?_⟩
  all_goals decide +kernel

/-! ### Runs -/

/-- A change that, on the model that it finds, drops no column of a join and adds no join over a
    column that is not there. -/
structure Change.KeepsColumns (c : Change) (m : Model) : Prop where
  dropped : ∀ j ∈ m.joins, c.strands j = false
  added : ∀ j s, c = .addJoin j s → j.ResolvesIn m

/-- Changes that keep the columns of joins, each on the model that those before it lead to. -/
def Model.KeepsColumns (m : Model) : List Change → Prop
  | [] => True
  | c :: cs => c.KeepsColumns m ∧ (m.applyOrSkip c).KeepsColumns cs

theorem resolvesIn_applyOrSkip {m : Model} (hunique : m.NamesUnique)
    (hresolve : ∀ j ∈ m.joins, j.ResolvesIn m) {c : Change} (hc : c.KeepsColumns m) :
    ∀ j ∈ (m.applyOrSkip c).joins, j.ResolvesIn (m.applyOrSkip c) := by
  rw [Model.applyOrSkip]
  split
  next edited happly => exact (resolvesIn_of_apply hunique hresolve hc.added happly).2.2 hc.dropped
  next => exact hresolve

/-- **Every join resolves along a run of changes that drop no column from under a join**, whichever
    of the changes are refused. -/
theorem resolvesIn_of_mem_scanl {m : Model} (hm : m.Coherent)
    (hresolve : ∀ j ∈ m.joins, j.ResolvesIn m) {cs : List Change} (hcs : ∀ c ∈ cs, c.Proper)
    (hkeeps : m.KeepsColumns cs) :
    ∀ m' ∈ cs.scanl Model.applyOrSkip m, ∀ j ∈ m'.joins, j.ResolvesIn m' := by
  induction cs generalizing m with
  | nil =>
    intro m' hm'
    obtain rfl := List.mem_singleton.1 hm'
    exact hresolve
  | cons c cs ih =>
    obtain ⟨hc, hrest⟩ := List.forall_mem_cons.1 hcs
    rw [List.scanl_cons, List.forall_mem_cons]
    exact ⟨hresolve, ih (hm.applyOrSkip hc)
      (resolvesIn_applyOrSkip hm.namesUnique hresolve hkeeps.1) hrest hkeeps.2⟩

end SchemaDrift
