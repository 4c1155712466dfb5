/-
  SchemaDrift/Proofs/ModelMoves.lean
  ==================================
  **The changes that lead from one model to another, within a scope of tables.**

  `ModelMoves` says which changes lead from a source model to a target: the moves of
  every table in the scope, none about a table outside, and for the joins within the
  scope the signatures that go and those that come.  In order of execution they run
  through and lead to a model that matches the target (`run_of_moves`).

  The run has three phases.  Joins are dropped first, so that a table that is dropped
  afterwards takes no join that is still wanted: a join that stays is one of the target,
  which then has its tables.  Joins are added last, when all tables are there.
-/
import SchemaDrift.Proofs.JoinEdit
import SchemaDrift.Proofs.Moves

namespace SchemaDrift

/-! ### Models that match -/

/-- Models between which a plan finds no difference within a scope. -/
structure Model.Matches (scope : String → Bool) (m m' : Model) : Prop where
  distinct : (m.tables.map Table.matchKey).Nodup
  distinct' : (m'.tables.map Table.matchKey).Nodup
  complete : ∀ j ∈ m.joins, ∀ s, (m.tableAt (foldName (j.entity s))).isSome = true
  complete' : ∀ j ∈ m'.joins, ∀ s, (m'.tableAt (foldName (j.entity s))).isSome = true
  tables : ∀ key, scope key = true → Option.Rel Table.Matches (m.tableAt key) (m'.tableAt key)
  joins : (m.signaturesIn scope).Perm (m'.signaturesIn scope)

theorem isSome_of_rel {α β : Type} {R : α → β → Prop} {a : Option α} {b : Option β}
    (h : Option.Rel R a b) : a.isSome = b.isSome := by
  cases h <;> rfl

theorem Model.Matches.symm {scope : String → Bool} {m m' : Model} (h : m.Matches scope m') :
    m'.Matches scope m where
  distinct := h.distinct'
  distinct' := h.distinct
  complete := h.complete'
  complete' := h.complete
  tables key hkey := by
    have htables := h.tables key hkey
    revert htables
    generalize m.tableAt key = t
    generalize m'.tableAt key = t'
    rintro (⟨hmatches⟩ | _)
    · exact .some hmatches.symm
    · exact .none
  joins := h.joins.symm

/-! ### The moves of a model -/

/-- The changes that lead from a model to another within a scope. -/
structure ModelMoves (scope : String → Bool) (source target : Model) (cs : List Change) :
    Prop where
  outside : ∀ key, scope key = false → cs.filter (Change.isAt key) = []
  slots : ∀ key, scope key = true →
    SlotMoves (source.tableAt key) (target.tableAt key) (cs.filter (Change.isAt key))
  joins : ∃ kept,
    (source.signaturesIn scope).Perm (Change.droppedSignatures cs ++ kept) ∧
      (target.signaturesIn scope).Perm (kept ++ Change.addedSignatures cs)
  additions : ∀ j referencing, Change.addJoin j referencing ∈ cs → j.Legible ∧
    j.isWithin scope = true ∧ ∀ s, (target.tableAt (foldName (j.entity s))).isSome = true

theorem ModelMoves.perm {scope : String → Bool} {source target : Model} {cs ds : List Change}
    (h : ModelMoves scope source target cs) (hperm : ds.Perm cs) :
    ModelMoves scope source target ds where
  outside key hkey := by
    have hnone := hperm.filter (Change.isAt key)
    rw [h.outside key hkey] at hnone
    exact hnone.eq_nil
  slots key hkey := (h.slots key hkey).perm (hperm.filter _)
  joins := by
    obtain ⟨kept, hsource, htarget⟩ := h.joins
    refine ⟨kept, hsource.trans ?_, htarget.trans ?_⟩
    · exact (hperm.symm.filterMap _).append_right _
    · exact (hperm.symm.filterMap _).append_left _
  additions j referencing hj := h.additions j referencing (hperm.subset hj)

/-! ### Phases -/

/-- Changes in order drop joins first and add joins last. -/
theorem Change.InOrder.phases {cs : List Change} (h : Change.InOrder cs) :
    cs = cs.filter (fun c => decide (c.kind = .dropJoin)) ++
      (cs.filter (fun c => !c.kind.isJoin) ++ cs.filter (fun c => decide (c.kind = .addJoin))) := by
  have hdrops : ∀ c : Change, decide (c.kind.priority ≤ 10) = decide (c.kind = .dropJoin) := by
    intro c
    cases c <;> rfl
  have htables : ∀ c : Change, (decide (c.kind.priority ≤ 85) && !decide (c.kind.priority ≤ 10)) =
      !c.kind.isJoin := by
    intro c
    cases c <;> rfl
  have hadds : ∀ c : Change, (!decide (c.kind.priority ≤ 85) && !decide (c.kind.priority ≤ 10)) =
      decide (c.kind = .addJoin) := by
    intro c
    cases c <;> rfl
  have hrest := InOrder.eq_append (h.filter fun c => !decide (c.kind.priority ≤ 10)) 85
  rw [List.filter_filter, List.filter_filter] at hrest
  simp only [htables, hadds] at hrest
  rw [← hrest]
  simp only [← hdrops]
  exact h.eq_append 10

theorem droppedSignatures_drops (cs : List Change) :
    Change.droppedSignatures (cs.filter fun c => decide (c.kind = .dropJoin)) =
      Change.droppedSignatures cs := by
  rw [Change.droppedSignatures, List.filterMap_filter]
  refine List.filterMap_congr fun c _ => ?_
  cases c <;> rfl

theorem addedSignatures_adds (cs : List Change) :
    Change.addedSignatures (cs.filter fun c => decide (c.kind = .addJoin)) =
      Change.addedSignatures cs := by
  rw [Change.addedSignatures, List.filterMap_filter]
  refine List.filterMap_congr fun c _ => ?_
  cases c <;> rfl

theorem filter_isAt_tables (key : String) (cs : List Change) :
    (cs.filter fun c => !c.kind.isJoin).filter (Change.isAt key) = cs.filter (Change.isAt key) := by
  rw [List.filter_filter]
  refine List.filter_congr fun c _ => ?_
  rw [Change.isAt]
  cases c.kind.isJoin <;> simp

/-- **Changes in order run through** where those about each table do, the joins that are dropped
    are there, no join is added whose signature is, and none whose tables are not. -/
theorem exists_run_of_phases {post : Model → Model} (hpost : Settling post)
    {scope : String → Bool} {m : Model} (hdistinct : (m.tables.map Table.matchKey).Nodup)
    (hlegible : ∀ j ∈ m.anonymousJoins, j.Legible) {cs : List Change}
    (hinOrder : Change.InOrder cs) {slot : String → Option Table}
    (hslots : ∀ key, runSlot (cs.filter (Change.isAt key)) (m.tableAt key) = some (slot key))
    {rest : List String}
    (hgone : (m.signaturesIn scope).Perm (Change.droppedSignatures cs ++ rest))
    (hnodup : (m.signaturesIn scope ++ Change.addedSignatures cs).Nodup)
    (hadds : ∀ j referencing, Change.addJoin j referencing ∈ cs → j.Legible ∧
      j.isWithin scope = true ∧ ∀ s, (slot (foldName (j.entity s))).isSome = true) :
    ∃ m', m.runChanges post cs = .ok m' := by
  have hkeptNodup : (rest ++ Change.addedSignatures cs).Nodup := by
    refine List.Nodup.sublist ?_ ((hgone.append_right _).nodup_iff.1 hnodup)
    exact (List.sublist_append_right _ _).append_right _
  -- the joins that go
  rw [← droppedSignatures_drops] at hgone
  obtain ⟨m₁, hrun₁, htables₁, hsubset₁, hrest⟩ := run_drops hpost hlegible (by simp) hgone
  -- the tables
  have hslots₁ : ∀ key, runSlot ((cs.filter fun c => !c.kind.isJoin).filter (Change.isAt key))
      (m₁.tableAt key) = some (slot key) := by
    intro key
    rw [filter_isAt_tables, Model.tableAt, htables₁]
    exact hslots key
  obtain ⟨m₂, hrun₂, -, htableAt₂, hjoins₂⟩ :=
    run_of_slots hpost (by simp) (htables₁ ▸ hdistinct) hslots₁
  have hsublist : (m₂.signaturesIn scope).Sublist (m₁.signaturesIn scope) := by
    rw [Model.signaturesIn, hjoins₂]
    exact (List.filter_sublist.filter _).map _
  have hsubset₂ : ∀ j ∈ m₂.anonymousJoins, j ∈ m₁.anonymousJoins := by
    rw [hjoins₂]
    exact fun j hj => List.mem_of_mem_filter hj
  -- the joins that come
  have hadds₂ : ∀ j referencing,
      Change.addJoin j referencing ∈ cs.filter (fun c => decide (c.kind = .addJoin)) →
      j.Legible ∧ j.isWithin scope = true ∧
        ∀ s, (m₂.tableAt (foldName (j.entity s))).isSome = true := by
    intro j referencing hj
    simp only [htableAt₂]
    exact hadds j referencing (List.mem_of_mem_filter hj)
  have hnodup₂ : (m₂.signaturesIn scope ++ Change.addedSignatures
      (cs.filter fun c => decide (c.kind = .addJoin))).Nodup := by
    rw [addedSignatures_adds]
    have hall := ((hrest.append_right _).nodup_iff.2 hkeptNodup)
    exact hall.sublist (hsublist.append_right _)
  obtain ⟨m₃, hrun₃, -⟩ := run_adds hpost (fun j hj => hlegible j (hsubset₁ j (hsubset₂ j hj)))
    (by simp) hadds₂ hnodup₂
  refine ⟨m₃, ?_⟩
  rw [hinOrder.phases, runChanges_append hrun₁, runChanges_append hrun₂]
  exact hrun₃

/-! ### The run -/

/-- A model between the second phase and the third: the tables are those of the target, and of the
    joins the signatures are there that both models have. -/
structure TablesMoved (scope : String → Bool) (source target : Model) (kept : List String)
    (m : Model) : Prop where
  distinct : (m.tables.map Table.matchKey).Nodup
  tables : ∀ key, scope key = true → Option.Rel Table.Matches (m.tableAt key) (target.tableAt key)
  joins : ∀ j ∈ m.anonymousJoins, j ∈ source.anonymousJoins
  complete : ∀ j ∈ m.anonymousJoins, ∀ s, (m.tableAt (foldName (j.entity s))).isSome = true
  signatures : (m.signaturesIn scope).Perm kept

section Run

variable {scope : String → Bool} {source target : Model} {cs : List Change}
  (h : ModelMoves scope source target cs)

include h

theorem ModelMoves.of_dropTable {t : Table} (ht : Change.dropTable t ∈ cs) :
    target.tableAt t.matchKey = none := by
  have hmem : Change.dropTable t ∈ cs.filter (Change.isAt t.matchKey) :=
    List.mem_filter.2 ⟨ht, beq_self_eq_true (foldName t.name)⟩
  cases hscope : scope t.matchKey with
  | false =>
    rw [h.outside _ hscope] at hmem
    cases hmem
  | true =>
    have hslot := h.slots _ hscope
    generalize source.tableAt t.matchKey = s at hslot
    generalize target.tableAt t.matchKey = t' at hslot ⊢
    generalize cs.filter (Change.isAt t.matchKey) = moves at hslot hmem
    cases hslot with
    | absent => rfl
    | added _ => cases List.mem_singleton.1 hmem
    | dropped _ => rfl
    | kept _ hmoves => cases hmoves.inTable _ hmem

/-- A table of the source is there afterwards unless it is dropped. -/
theorem ModelMoves.dropped_or_kept {key : String} (hscope : scope key = true)
    (hsource : (source.tableAt key).isSome = true) :
    (∃ t, t.matchKey = key ∧ Change.dropTable t ∈ cs) ∨ (target.tableAt key).isSome = true := by
  have hslot := h.slots key hscope
  generalize hs : source.tableAt key = s at hslot hsource
  generalize target.tableAt key = t at hslot ⊢
  generalize hmoves : cs.filter (Change.isAt key) = moves at hslot
  cases hslot with
  | absent => cases hsource
  | added _ => cases hsource
  | dropped t =>
    refine .inl ⟨t, keyOf_entryAt hs, ?_⟩
    have hmem : Change.dropTable t ∈ cs.filter (Change.isAt key) := by
      rw [hmoves]
      exact List.mem_singleton_self _
    exact List.mem_of_mem_filter hmem
  | kept _ _ => exact .inr rfl

variable (hsource : source.WellFormed) (htarget : target.WellFormed)

include hsource htarget

theorem ModelMoves.exists_slot (hinOrder : Change.InOrder cs) (key : String) :
    ∃ slot, runSlot (cs.filter (Change.isAt key)) (source.tableAt key) = some slot ∧
      (scope key = true → Option.Rel Table.Matches slot (target.tableAt key)) ∧
      (scope key = false → slot = source.tableAt key) := by
  cases hscope : scope key with
  | false =>
    rw [h.outside key hscope]
    exact ⟨_, rfl, nofun, fun _ => rfl⟩
  | true =>
    obtain ⟨slot, hslot, hmatches⟩ := runSlot_of_moves (fun _ ht => hsource.consistent ht)
      (fun _ ht => htarget.consistent ht) (h.slots key hscope) (hinOrder.filter _)
    exact ⟨slot, hslot, fun _ => hmatches, nofun⟩

omit hsource in
/-- A join whose signature is wanted in the target loses no table. -/
theorem ModelMoves.spares_of_wanted {j : Join} (hj : j.Legible)
    (hwanted : j.signature ∈ target.signaturesIn scope) {c : Change} (hc : c ∈ cs) :
    c.spares j = true := by
  cases c with
  | dropTable t =>
    obtain ⟨k, hk, _, hsignature⟩ := Model.mem_signaturesIn.1 hwanted
    obtain ⟨k', hk', rfl⟩ := List.mem_map.1 hk
    have hthere : ∀ s, (target.tableAt (foldName (j.entity s))).isSome = true := by
      intro s
      rcases Join.entities_of_signature_eq hj (htarget.legible hk') hsignature.symm
        with hsame | hopposite
      · rw [hsame]
        exact htarget.joins_complete k' hk' s
      · rw [hopposite]
        exact htarget.joins_complete k' hk' s.opposite
    refine Change.spares_dropTable.2 fun s hs => ?_
    have hsome := hthere s
    rw [hs, h.of_dropTable hc] at hsome
    cases hsome
  | _ => rfl

omit hsource in
/-- The joins within the scope are left alone as long as all of them are wanted in the target. -/
theorem ModelMoves.filter_spares {js : List Join} (hjs : ∀ j ∈ js, j.Legible)
    (hwanted : ∀ j ∈ js, j.isWithin scope = true → j.signature ∈ target.signaturesIn scope)
    (p : Change → Bool) :
    (js.filter fun j => (cs.filter p).all fun c => c.spares j).filter (Join.isWithin scope) =
      js.filter (Join.isWithin scope) := by
  rw [List.filter_filter]
  refine List.filter_congr fun j hj => ?_
  cases hwithin : j.isWithin scope with
  | false => rfl
  | true =>
    refine List.all_eq_true.2 fun c hc => ?_
    exact h.spares_of_wanted htarget (hjs j hj) (hwanted j hj hwithin) (List.mem_of_mem_filter hc)

/-- The second phase, told of a model from which the joins that go have been dropped. -/
theorem ModelMoves.run_tables {post : Model → Model} (hpost : Settling post)
    (hinOrder : Change.InOrder cs) {kept : List String}
    (hkept : ∀ signature ∈ kept, signature ∈ target.signaturesIn scope) {m : Model}
    (htables : m.tables = source.tables)
    (hsubset : ∀ j ∈ m.anonymousJoins, j ∈ source.anonymousJoins)
    (hsignatures : (m.signaturesIn scope).Perm kept) :
    ∃ m', m.runChanges post (cs.filter fun c => !c.kind.isJoin) = .ok m' ∧
      TablesMoved scope source target kept m' := by
  choose slot hslot hinside houtside using h.exists_slot hsource htarget hinOrder
  have hslots : ∀ key, runSlot ((cs.filter fun c => !c.kind.isJoin).filter (Change.isAt key))
      (m.tableAt key) = some (slot key) := by
    intro key
    rw [filter_isAt_tables, Model.tableAt, htables]
    exact hslot key
  have hdistinct : (m.tables.map Table.matchKey).Nodup := by
    rw [htables]
    exact hsource.tables_distinct
  obtain ⟨m', hrun, hdistinct', htableAt, hjoins⟩ :=
    run_of_slots hpost (by simp) hdistinct hslots
  have hmatches : ∀ key, scope key = true →
      Option.Rel Table.Matches (m'.tableAt key) (target.tableAt key) := by
    intro key hscope
    rw [htableAt]
    exact hinside key hscope
  refine ⟨m', hrun, hdistinct', hmatches, fun j hj => ?_, fun j hj s => ?_, ?_⟩
  · rw [hjoins] at hj
    exact hsubset j (List.mem_of_mem_filter hj)
  · rw [hjoins] at hj
    obtain ⟨hold, hspared⟩ := List.mem_filter.1 hj
    obtain ⟨k, hk, rfl⟩ := List.mem_map.1 (hsubset j hold)
    have hsome : (source.tableAt (foldName (k.entity s))).isSome = true :=
      hsource.joins_complete k hk s
    rw [Join.entity_anonymous]
    cases hscope : scope (foldName (k.entity s)) with
    | false =>
      rw [htableAt, houtside _ hscope]
      exact hsome
    | true =>
      rcases h.dropped_or_kept hscope hsome with ⟨t, hkey, hdrop⟩ | hthere
      · have hspares := List.all_eq_true.1 hspared _ (List.mem_filter.2 ⟨hdrop, rfl⟩)
        exact absurd hkey.symm (Change.spares_dropTable.1 hspares s)
      · rw [isSome_of_rel (hmatches _ hscope)]
        exact hthere
  · have hlegible : ∀ j ∈ m.anonymousJoins, j.Legible := by
      intro j hj
      obtain ⟨k, hk, rfl⟩ := List.mem_map.1 (hsubset j hj)
      exact (hsource.legible hk).anonymous
    have hwanted : ∀ j ∈ m.anonymousJoins, j.isWithin scope = true →
        j.signature ∈ target.signaturesIn scope := by
      intro j hj hwithin
      exact hkept _ (hsignatures.subset (Model.mem_signaturesIn.2 ⟨j, hj, hwithin, rfl⟩))
    rw [Model.signaturesIn, hjoins, h.filter_spares htarget hlegible hwanted]
    exact hsignatures

/-- **The moves of a model, in order of execution, run through and lead to a model that matches
    the target.** -/
theorem run_of_moves {post : Model → Model} (hpost : Settling post)
    (hnodup : (target.signaturesIn scope).Nodup) (hinOrder : Change.InOrder cs) :
    ∃ m, source.runChanges post cs = .ok m ∧ m.Matches scope target := by
  obtain ⟨kept, hgone, hwanted⟩ := h.joins
  have hlegible : ∀ j ∈ source.anonymousJoins, j.Legible := by
    intro j hj
    obtain ⟨k, hk, rfl⟩ := List.mem_map.1 hj
    exact (hsource.legible hk).anonymous
  -- the joins that go
  rw [← droppedSignatures_drops] at hgone
  obtain ⟨m₁, hrun₁, htables₁, hsubset₁, hkept₁⟩ := run_drops hpost hlegible (by simp) hgone
  -- the tables
  have hkept : ∀ signature ∈ kept, signature ∈ target.signaturesIn scope :=
    fun signature hmem => hwanted.mem_iff.2 (List.mem_append_left _ hmem)
  obtain ⟨m₂, hrun₂, hmoved⟩ := h.run_tables hsource htarget hpost hinOrder hkept htables₁
    hsubset₁ hkept₁
  -- the joins that come
  have hadds : ∀ j referencing,
      Change.addJoin j referencing ∈ cs.filter (fun c => decide (c.kind = .addJoin)) →
      j.Legible ∧ j.isWithin scope = true ∧
        ∀ s, (m₂.tableAt (foldName (j.entity s))).isSome = true := by
    intro j referencing hj
    obtain ⟨hj', hwithin, hcomplete⟩ := h.additions j referencing (List.mem_of_mem_filter hj)
    refine ⟨hj', hwithin, fun s => ?_⟩
    rw [isSome_of_rel (hmoved.tables _ (Join.isWithin_iff.1 hwithin s))]
    exact hcomplete s
  have hall : (m₂.signaturesIn scope ++ Change.addedSignatures
      (cs.filter fun c => decide (c.kind = .addJoin))).Perm (target.signaturesIn scope) := by
    rw [addedSignatures_adds]
    exact (hmoved.signatures.append_right _).trans hwanted.symm
  obtain ⟨m₃, hrun₃, htables₃, hjoins₃, hsignatures₃⟩ := run_adds hpost
    (fun j hj => hlegible j (hmoved.joins j hj)) (by simp) hadds (hall.nodup_iff.2 hnodup)
  have htableAt₃ : ∀ key, m₃.tableAt key = m₂.tableAt key := by
    intro key
    rw [Model.tableAt, Model.tableAt, htables₃]
  refine ⟨m₃, ?_, ?_⟩
  · rw [hinOrder.phases, runChanges_append hrun₁, runChanges_append hrun₂]
    exact hrun₃
  · refine ⟨?_, htarget.tables_distinct, ?_, htarget.joins_complete, fun key hkey => ?_, ?_⟩
    · rw [htables₃]
      exact hmoved.distinct
    · intro j hj s
      rw [htableAt₃]
      rcases hjoins₃ j.anonymous (List.mem_map_of_mem hj) with hold | hnew
      · exact hmoved.complete _ hold s
      · exact hnew s
    · rw [htableAt₃]
      exact hmoved.tables key hkey
    · rw [hsignatures₃]
      exact hall

end Run

end SchemaDrift
