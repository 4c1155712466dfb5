/-
  SchemaDrift/Proofs/Exchange.lean
  ================================
  **Planning the other way round is undoing the plan.**

  A plan and the plan of the same two models exchanged find the same differences, and
  say of each the opposite: what the one adds the other drops, and what is old to the
  one is new to the other.  They find them in another order, but within each kind of
  change the order is the same, and the order of execution looks at the kind alone.  So
  the changes of the second plan are, position by position, those of the first one
  reversed (`plan_exchanged`).

  A change spells the names that both models have as the original does, and a join that
  is dropped is respelled.  Neither makes a difference where the models spell all names
  alike (`SpelledAlike`), and where respelling leaves the form of a join as it is
  (`Join.WellMade`).
-/
import SchemaDrift.Proofs.Convergence
import SchemaDrift.Proofs.Folding

namespace SchemaDrift

/-! ### Models that spell names alike -/

/-- Names of one key are one name: those of tables, those of columns of tables with one key, and
    those that joins have for tables and columns. -/
structure SpelledAlike (tables : List Table) (joins : List Join) : Prop where
  of_tables : ∀ t ∈ tables, ∀ u ∈ tables, t.matchKey = u.matchKey → t.name = u.name ∧
    ∀ c ∈ t.columns, ∀ d ∈ u.columns, c.matchKey = d.matchKey → c.name = d.name
  of_joins : ∀ j ∈ joins, ∀ s, ∀ t ∈ tables, t.matchKey = foldName (j.entity s) →
    t.name = j.entity s ∧ ∀ pair ∈ j.condition.pairs, ∀ c ∈ t.columns,
      c.matchKey = foldName (pair.get s) → c.name = pair.get s

instance (tables : List Table) (joins : List Join) : Decidable (SpelledAlike tables joins) :=
  decidable_of_iff (_ ∧ _) ⟨fun h => SpelledAlike.mk h.1 h.2, fun h => ⟨h.1, h.2⟩⟩

theorem SpelledAlike.respell_eq {tables : List Table} {joins : List Join}
    (h : SpelledAlike tables joins) {m : Model} (hm : ∀ t ∈ m.tables, t ∈ tables) {j : Join}
    (hj : j ∈ joins) (hmade : j.WellMade) : j.respell m = .ok j := by
  apply respell_eq_self hmade
  · intro s t ht
    exact (h.of_joins j hj s t (hm t (mem_of_entryAt ht)) (keyOf_entryAt ht)).1
  · intro s t ht pair hpair c hc
    exact (h.of_joins j hj s t (hm t (mem_of_entryAt ht)) (keyOf_entryAt ht)).2 pair hpair c
      (mem_of_entryAt hc) (keyOf_entryAt hc)

/-! ### The changes of a table -/

section OneTable

variable {options : PlanOptions} {original imported : Table}

theorem columnChanges_exchanged (table : String) {wanted actual : Column}
    (h : wanted.name = actual.name) :
    columnChanges table actual wanted = (columnChanges table wanted actual).map Change.dual := by
  rw [columnChanges, ← h]
  exact (read_columnChanges .toModel table wanted actual).symm

theorem keyChanges_exchanged (h : original.name = imported.name) :
    keyChanges options imported original =
      (keyChanges options original imported).map Change.dual := by
  have hsame : sameNames imported.primaryKey original.primaryKey =
      sameNames original.primaryKey imported.primaryKey := by
    rw [Bool.eq_iff_iff, sameNames_iff, sameNames_iff]
    exact eq_comm
  rw [keyChanges, keyChanges, hsame, h]
  split
  · rfl
  · rfl

theorem sameByKind_exchanged {α : Type} {add drop : α → Change}
    (hdual : ∀ x, (add x).dual = drop x) (hkind : ∀ x y, (add x).kind ≠ (drop y).kind)
    (xs ys : List α) :
    SameByKind Change.kind (ys.map add ++ xs.map drop)
      ((xs.map add ++ ys.map drop).map Change.dual) := by
  have hdual' : ∀ y, (drop y).dual = add y := by
    intro y
    rw [← hdual, Change.dual_dual]
  simp only [List.map_append, List.map_map, Function.comp_def, hdual, hdual']
  apply SameByKind.append_comm
  intro c hc d hd
  obtain ⟨y, _, rfl⟩ := List.mem_map.1 hc
  obtain ⟨x, _, rfl⟩ := List.mem_map.1 hd
  exact hkind y x

theorem tableChanges_exchanged (hname : original.name = imported.name)
    (hcolumns : ∀ c ∈ original.columns, ∀ d ∈ imported.columns, c.matchKey = d.matchKey →
      c.name = d.name)
    (hunambiguous : (columnDifference options.inclusion original imported).ambiguous = []) :
    SameByKind Change.kind (tableChanges options imported original)
      ((tableChanges options original imported).map Change.dual) := by
  let columns := columnDifference options.inclusion original imported
  have hadded : (columnDifference options.inclusion imported original).onlyOriginal =
      columns.onlyImported := onlyOriginal_exchanged hunambiguous
  have hdropped : (columnDifference options.inclusion imported original).onlyImported =
      columns.onlyOriginal := onlyImported_exchanged hunambiguous
  have hswap : (columnDifference options.inclusion imported original).both =
      columns.both.map Prod.swap := both_exchanged
  rw [tableChanges, tableChanges, List.map_append, List.map_append, keyChanges_exchanged hname,
    ← hname]
  simp only [hadded, hdropped, hswap, List.flatMap_map, List.map_flatMap]
  apply SameByKind.append _ (.refl _)
  apply SameByKind.append
  · apply sameByKind_exchanged
    · intro _
      rfl
    · simp [Change.kind]
  · apply SameByKind.flatMap
    rintro ⟨wanted, actual⟩ hpair
    obtain ⟨hwanted, hactual, hkey⟩ := mem_both hpair
    have hspelled : wanted.name = actual.name := hcolumns wanted (List.mem_of_mem_filter hwanted)
      actual (List.mem_of_mem_filter hactual) hkey
    change SameByKind _ (columnChanges original.name actual wanted) _
    rw [columnChanges_exchanged original.name hspelled]
    exact .refl _

end OneTable

/-! ### The changes of two models -/

section Models

variable {options : PlanOptions} {original imported : Model}

theorem slotChanges_exchanged {joins : List Join}
    (halike : SpelledAlike (original.tables ++ imported.tables) joins)
    (hunambiguous : ambiguousKeys options.inclusion original imported = []) :
    SameByKind Change.kind (slotChanges options imported original)
      ((slotChanges options original imported).map Change.dual) := by
  obtain ⟨htables, hcolumns, -⟩ := ambiguousKeys_eq_nil.1 hunambiguous
  let tables := tableDifference options.inclusion original imported
  have hadded : (tableDifference options.inclusion imported original).onlyOriginal =
      tables.onlyImported := onlyOriginal_exchanged htables
  have hdropped : (tableDifference options.inclusion imported original).onlyImported =
      tables.onlyOriginal := onlyImported_exchanged htables
  have hswap : (tableDifference options.inclusion imported original).both =
      tables.both.map Prod.swap := both_exchanged
  rw [slotChanges, slotChanges, List.map_append]
  simp only [hadded, hdropped, hswap, List.flatMap_map, List.map_flatMap]
  apply SameByKind.append
  · apply sameByKind_exchanged
    · intro _
      rfl
    · simp [Change.kind]
  · apply SameByKind.flatMap
    rintro ⟨o, i⟩ hpair
    obtain ⟨ho, hi, hkey⟩ := mem_both hpair
    obtain ⟨hname, hspelled⟩ := halike.of_tables
      o (List.mem_append_left _ (List.mem_of_mem_filter ho))
      i (List.mem_append_right _ (List.mem_of_mem_filter hi)) hkey
    exact tableChanges_exchanged hname hspelled (hcolumns (o, i) hpair)

theorem joinChanges_exchanged (hjoins : options.skipJoins = false)
    (halike : SpelledAlike (original.tables ++ imported.tables) (original.joins ++ imported.joins))
    (hmade : ∀ j ∈ original.joins ++ imported.joins, j.WellMade)
    (hunambiguous : ambiguousKeys options.inclusion original imported = []) {cs : List Change}
    (h : joinChanges options original imported = .ok cs) :
    ∃ ds, joinChanges options imported original = .ok ds ∧
      SameByKind Change.kind ds (cs.map Change.dual) := by
  obtain ⟨-, -, hsignatures⟩ := ambiguousKeys_eq_nil.1 hunambiguous
  obtain ⟨drops, adds, hdrops, hadds, rfl⟩ := joinChanges_eq_ok.1 h
  rw [joinsToAdd_of_not_skipped hjoins] at hadds
  have honlyOriginal : ∀ j ∈ (joinDifference options.inclusion original imported).onlyOriginal,
      j ∈ original.joins ++ imported.joins := by
    intro j hj
    have hmem := (perm_originals _ _ _).subset (List.mem_append_right _ hj)
    exact List.mem_append_left _ (List.mem_of_mem_filter hmem)
  have honlyImported : ∀ j ∈ (joinDifference options.inclusion original imported).onlyImported,
      j ∈ original.joins ++ imported.joins := by
    intro j hj
    have hmem := (perm_imports _ _ _).subset (List.mem_append_right _ hj)
    exact List.mem_append_right _ (List.mem_of_mem_filter hmem)
  -- a join that was to be added is one to drop, and the other way round
  have hdrops' : List.Forall₂ (fun j c => Change.dropJoinOf j original imported = .ok c)
      (joinDifference options.inclusion imported original).onlyImported (adds.map Change.dual) := by
    have hback : (joinDifference options.inclusion imported original).onlyImported =
        (joinDifference options.inclusion original imported).onlyOriginal :=
      onlyImported_exchanged hsignatures
    have hstated := (List.forall₂_and_left _ _).2 ⟨honlyOriginal, hadds⟩
    rw [hback, List.forall₂_map_right_iff]
    apply hstated.imp
    rintro j c ⟨hj, hc⟩
    obtain ⟨referencing, hside, rfl⟩ := addJoinOf_eq_ok.1 hc
    have hrespell : j.respell imported = .ok j :=
      halike.respell_eq (fun t ht => List.mem_append_right _ ht) hj (hmade j hj)
    exact dropJoinOf_eq_ok.2 ⟨j, referencing, hrespell, hside, rfl⟩
  have hadds' : List.Forall₂ (fun j c => Change.addJoinOf j imported = .ok c)
      (joinDifference options.inclusion imported original).onlyOriginal
      (drops.map Change.dual) := by
    have hback : (joinDifference options.inclusion imported original).onlyOriginal =
        (joinDifference options.inclusion original imported).onlyImported :=
      onlyOriginal_exchanged hsignatures
    have hstated := (List.forall₂_and_left _ _).2 ⟨honlyImported, hdrops⟩
    rw [hback, List.forall₂_map_right_iff]
    apply hstated.imp
    rintro j c ⟨hj, hc⟩
    obtain ⟨k, referencing, hrespell, hside, rfl⟩ := dropJoinOf_eq_ok.1 hc
    have hsame : j.respell original = .ok j :=
      halike.respell_eq (fun t ht => List.mem_append_left _ ht) hj (hmade j hj)
    obtain rfl : k = j := Except.ok.inj (hrespell.symm.trans hsame)
    exact addJoinOf_eq_ok.2 ⟨referencing, hside, rfl⟩
  rw [← joinsToAdd_of_not_skipped hjoins] at hadds'
  refine ⟨_, joinChanges_eq_ok.2 ⟨_, _, hdrops', hadds', rfl⟩, ?_⟩
  rw [List.map_append]
  apply SameByKind.append_comm
  intro c hc d hd
  obtain ⟨add, hadd, rfl⟩ := List.mem_map.1 hc
  obtain ⟨drop, hdrop, rfl⟩ := List.mem_map.1 hd
  obtain ⟨_, _, hadd⟩ := exists_of_mem_forall₂ hadds hadd
  obtain ⟨_, _, hdrop⟩ := exists_of_mem_forall₂ hdrops hdrop
  obtain ⟨_, _, rfl⟩ := addJoinOf_eq_ok.1 hadd
  obtain ⟨_, _, _, _, rfl⟩ := dropJoinOf_eq_ok.1 hdrop
  simp [Change.kind, Change.dual]

end Models

/-! ### Plans -/

theorem sameByKind_changes {options : PlanOptions} {original imported : Model} {p : Plan}
    (h : plan options original imported = .ok p) :
    ∃ ofJoins, joinChanges options original imported = .ok ofJoins ∧
      SameByKind Change.kind p.changes (slotChanges options original imported ++ ofJoins) := by
  obtain ⟨-, -, ofJoins, hofJoins, rfl⟩ := plan_eq_ok.1 h
  refine ⟨ofJoins, hofJoins, ?_⟩
  have hbare : ∀ cs : List Change, (cs.map (Token.mk .toDatabase)).map Token.change = cs := by
    intro cs
    rw [List.map_map]
    exact List.map_id cs
  have hsorted := Change.sameByKind_map_change (sameByKind_sortTokens
    ((slotChanges options original imported ++ ofJoins).map (Token.mk .toDatabase)))
  rwa [hbare] at hsorted

theorem sameByKind_reversed (p : Plan) :
    SameByKind Change.kind p.reversed.changes (p.changes.map Change.dual) := by
  have hdual : p.changes.map Change.dual = (p.tokens.map Token.reverse).map Token.change := by
    rw [Plan.changes, List.map_map, List.map_map]
    rfl
  rw [hdual]
  exact Change.sameByKind_map_change (sameByKind_sortTokens _)

/-- **Planning is antisymmetric.**  Where names are spelled alike and no key is ambiguous, the plan
    of the two models exchanged has the changes of the plan reversed, in the same order. -/
theorem plan_exchanged {options : PlanOptions} (hjoins : options.skipJoins = false)
    {original imported : Model}
    (halike : SpelledAlike (original.tables ++ imported.tables) (original.joins ++ imported.joins))
    (hmade : ∀ j ∈ original.joins ++ imported.joins, j.WellMade) {p : Plan}
    (hplan : plan options original imported = .ok p) (hunambiguous : p.ambiguous = []) :
    ∃ q, plan options imported original = .ok q ∧
      q.tokens.map Token.change = p.reversed.tokens.map Token.change := by
  rw [ambiguous_of_plan hplan] at hunambiguous
  obtain ⟨horiginal, himported, -⟩ := plan_eq_ok.1 hplan
  obtain ⟨ofJoins, hofJoins, hchanges⟩ := sameByKind_changes hplan
  obtain ⟨ofJoins', hofJoins', hexchanged⟩ :=
    joinChanges_exchanged hjoins halike hmade hunambiguous hofJoins
  have hplan' := plan_eq_ok.2 ⟨himported, horiginal, ofJoins', hofJoins', rfl⟩
  refine ⟨_, hplan', ?_⟩
  obtain ⟨ofJoins'', hofJoins'', hchanges'⟩ := sameByKind_changes hplan'
  obtain rfl : ofJoins'' = ofJoins' := Except.ok.inj (hofJoins''.symm.trans hofJoins')
  apply eq_of_sameByKind (Change.inOrder_of_sortTokens _) (Change.inOrder_of_sortTokens _)
  have hdual : SameByKind Change.kind
      (slotChanges options imported original ++ ofJoins'')
      ((slotChanges options original imported ++ ofJoins).map Change.dual) := by
    rw [List.map_append]
    exact (slotChanges_exchanged halike hunambiguous).append hexchanged
  apply hchanges'.trans
  apply hdual.trans
  apply (Change.sameByKind_map_dual hchanges).symm.trans
  exact (sameByKind_reversed p).symm

/-- The plan of the sample models, both in upper case. -/
def foldedPlan : Plan := (plan {} sampleModel sampleImport.fold).toOption.getD {}

theorem plan_exchanged_sample :
    plan {} sampleModel sampleImport.fold = .ok foldedPlan ∧ foldedPlan.tokens.length = 12 ∧
      ∃ q, plan {} sampleImport.fold sampleModel = .ok q ∧
        q.tokens.map Token.change = foldedPlan.reversed.tokens.map Token.change := by
  have hplan : plan {} sampleModel sampleImport.fold = .ok foldedPlan := by decide +kernel
  exact ⟨hplan, by decide +kernel, plan_exchanged rfl (by decide +kernel) (by decide +kernel) hplan
    (by decide +kernel)⟩

end SchemaDrift
