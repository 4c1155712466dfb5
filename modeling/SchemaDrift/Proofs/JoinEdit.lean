/-
  SchemaDrift/Proofs/JoinEdit.lean
  ================================
  **What the changes about joins do to a model, by the signatures of its joins.**

  A join is dropped by its signature, and none is added whose signature is there.  So a
  run of drops takes away the signatures that it names (`run_drops`) and a run of
  additions adds its own (`run_adds`).  The names of endpoints, and which of several
  joins with one signature is taken, play no part.

  Both are told of the joins within a scope of tables.  The joins outside never get in
  the way: joins with one signature connect the same tables
  (`isWithin_of_signature_eq`), and so a join outside has no signature of one inside.
-/
import Mathlib.Data.List.Perm.Basic
import SchemaDrift.Proofs.ModelEdit

namespace SchemaDrift

/-! ### Joins within a scope -/

/-- Whether both tables of a join are in a scope, which is given by the keys of tables. -/
def Join.isWithin (scope : String → Bool) (j : Join) : Bool :=
  Side.both.all fun s => scope (foldName (j.entity s))

theorem Join.isWithin_iff {scope : String → Bool} {j : Join} :
    j.isWithin scope = true ↔ ∀ s, scope (foldName (j.entity s)) = true := by
  rw [Join.isWithin, List.all_eq_true, Side.forall_mem_both]

theorem Join.isWithin_of_signature_eq {scope : String → Bool} {j k : Join} (hj : j.Legible)
    (hk : k.Legible) (h : j.signature = k.signature) (hwithin : j.isWithin scope = true) :
    k.isWithin scope = true := by
  rw [isWithin_iff] at hwithin ⊢
  intro s
  rcases entities_of_signature_eq hj hk h with hsame | hopposite
  · rw [← hsame]
    exact hwithin s
  · have hturned := hopposite s.opposite
    rw [Side.opposite_opposite] at hturned
    rw [← hturned]
    exact hwithin s.opposite

/-- The signatures of the joins of a model within a scope. -/
def Model.signaturesIn (m : Model) (scope : String → Bool) : List String :=
  (m.anonymousJoins.filter (Join.isWithin scope)).map Join.signature

theorem Model.mem_signaturesIn {m : Model} {scope : String → Bool} {signature : String} :
    signature ∈ m.signaturesIn scope ↔
      ∃ j ∈ m.anonymousJoins, j.isWithin scope = true ∧ j.signature = signature := by
  simp only [signaturesIn, List.mem_map, List.mem_filter, and_assoc]

/-! ### One change -/

theorem exists_matchingJoin {m : Model} {j : Join} (h : ∃ k ∈ m.joins, k.signature = j.signature) :
    ∃ position removed, m.matchingJoin? j = some position ∧ m.joins[position]? = some removed ∧
      removed.signature = j.signature := by
  rw [Model.matchingJoin?]
  cases hequal : m.joins.findIdx? (· == j) with
  | some position =>
    obtain ⟨hlt, hposition, _⟩ := List.findIdx?_eq_some_iff_getElem.1 hequal
    refine ⟨position, _, rfl, List.getElem?_eq_getElem hlt, ?_⟩
    rw [eq_of_beq hposition]
  | none =>
    obtain ⟨k, hk, hsignature⟩ := h
    have hsome : (m.joins.findIdx? fun k => k.signature == j.signature).isSome = true := by
      rw [List.findIdx?_isSome]
      exact List.any_eq_true.2 ⟨k, hk, beq_iff_eq.2 hsignature⟩
    obtain ⟨position, hposition⟩ := Option.isSome_iff_exists.1 hsome
    obtain ⟨hlt, hfound, _⟩ := List.findIdx?_eq_some_iff_getElem.1 hposition
    exact ⟨position, _, hposition, List.getElem?_eq_getElem hlt, beq_iff_eq.1 hfound⟩

theorem apply_dropJoin {m : Model} {j : Join} (h : ∃ k ∈ m.joins, k.signature = j.signature)
    (referencing : Side) :
    ∃ edited, (Change.dropJoin j referencing).apply m = .ok edited ∧
      edited.model.tables = m.tables ∧ ∃ removed : Join, removed.signature = j.signature ∧
        m.anonymousJoins.Perm (removed :: edited.model.anonymousJoins) := by
  obtain ⟨position, removed, hmatch, hremoved, hsignature⟩ := exists_matchingJoin h
  refine ⟨_, apply_dropJoin_eq_ok.2 ⟨position, removed, hmatch, hremoved, rfl⟩, rfl,
    removed.anonymous, hsignature, ?_⟩
  change m.anonymousJoins.Perm (_ :: (Model.compile _).anonymousJoins)
  rw [Model.anonymousJoins_compile]
  obtain ⟨hlt, rfl⟩ := List.getElem?_eq_some_iff.1 hremoved
  exact ((List.getElem_cons_eraseIdx_perm hlt).map Join.anonymous).symm

theorem anonymousJoins_addJoin (m : Model) (j : Join) :
    (m.addJoin j).model.anonymousJoins = m.anonymousJoins ++ [j.anonymous] := by
  refine (Model.anonymousJoins_compile _).trans ?_
  rw [Model.anonymousJoins, List.map_append]
  rfl

theorem apply_addJoin {m : Model} {j : Join}
    (htables : ∀ s, (m.tableAt (foldName (j.entity s))).isSome = true)
    (hnew : ∀ k ∈ m.joins, k.signature ≠ j.signature) (referencing : Side) :
    ∃ edited, (Change.addJoin j referencing).apply m = .ok edited ∧
      edited.model.tables = m.tables ∧
      edited.model.anonymousJoins = m.anonymousJoins ++ [j.anonymous] := by
  exact ⟨_, apply_addJoin_eq_ok.2 ⟨htables, hnew, rfl⟩, rfl, anonymousJoins_addJoin m j⟩

/-! ### Runs -/

namespace Change

def droppedSignatures (cs : List Change) : List String :=
  cs.filterMap fun
    | dropJoin j _ => some j.signature
    | _ => none

def addedSignatures (cs : List Change) : List String :=
  cs.filterMap fun
    | addJoin j _ => some j.signature
    | _ => none

theorem droppedSignatures_cons (j : Join) (referencing : Side) (cs : List Change) :
    droppedSignatures (dropJoin j referencing :: cs) = j.signature :: droppedSignatures cs := rfl

theorem addedSignatures_cons (j : Join) (referencing : Side) (cs : List Change) :
    addedSignatures (dropJoin j referencing :: cs) = addedSignatures cs := rfl

theorem droppedSignatures_append (cs ds : List Change) :
    droppedSignatures (cs ++ ds) = droppedSignatures cs ++ droppedSignatures ds :=
  List.filterMap_append

theorem addedSignatures_append (cs ds : List Change) :
    addedSignatures (cs ++ ds) = addedSignatures cs ++ addedSignatures ds :=
  List.filterMap_append

theorem droppedSignatures_of_tables {cs : List Change} (h : ∀ c ∈ cs, c.kind.isJoin = false) :
    droppedSignatures cs = [] := by
  refine List.filterMap_eq_nil_iff.2 fun c hc => ?_
  have hkind := h c hc
  cases c <;> first | rfl | cases hkind

theorem addedSignatures_of_tables {cs : List Change} (h : ∀ c ∈ cs, c.kind.isJoin = false) :
    addedSignatures cs = [] := by
  refine List.filterMap_eq_nil_iff.2 fun c hc => ?_
  have hkind := h c hc
  cases c <;> first | rfl | cases hkind

end Change

section Runs

variable {post : Model → Model} (hpost : Settling post) {scope : String → Bool} {cs : List Change}
  {m : Model} (hlegible : ∀ j ∈ m.anonymousJoins, j.Legible)

include hpost hlegible

/-- Dropping a join whose signature is there takes this signature away. -/
theorem exists_dropStep {j : Join} (hthere : j.signature ∈ m.signaturesIn scope)
    (referencing : Side) :
    ∃ m' : Model,
      (∀ cs, m.runChanges post (.dropJoin j referencing :: cs) = m'.runChanges post cs) ∧
      m'.tables = m.tables ∧ (∀ i ∈ m'.anonymousJoins, i ∈ m.anonymousJoins) ∧
      (m.signaturesIn scope).Perm (j.signature :: m'.signaturesIn scope) := by
  obtain ⟨k, hk, hwithin, hsignature⟩ := Model.mem_signaturesIn.1 hthere
  obtain ⟨k', hk', rfl⟩ := List.mem_map.1 hk
  obtain ⟨edited, happly, htables, removed, hremoved, hperm⟩ :=
    apply_dropJoin ⟨k', hk', hsignature⟩ referencing
  have hmem : removed ∈ m.anonymousJoins := hperm.mem_iff.2 List.mem_cons_self
  -- what was removed is within the scope, as there is a join within that has its signature
  have hremovedWithin : removed.isWithin scope = true :=
    Join.isWithin_of_signature_eq (hlegible _ hk) (hlegible _ hmem)
      (hsignature.trans hremoved.symm) hwithin
  refine ⟨post edited.model, fun cs => runChanges_cons happly, ?_, fun i hi => ?_, ?_⟩
  · rw [hpost.tables, htables]
  · rw [hpost.joins] at hi
    exact hperm.mem_iff.2 (List.mem_cons_of_mem _ hi)
  · have hall := (hperm.filter (Join.isWithin scope)).map Join.signature
    rw [List.filter_cons_of_pos hremovedWithin, List.map_cons, hremoved] at hall
    rw [Model.signaturesIn, Model.signaturesIn, hpost.joins]
    exact hall

/-- Adding a join whose tables are there and whose signature is not adds this signature. -/
theorem exists_addStep {j : Join} (hj : j.Legible) (hwithin : j.isWithin scope = true)
    (hcomplete : ∀ s, (m.tableAt (foldName (j.entity s))).isSome = true)
    (hnew : j.signature ∉ m.signaturesIn scope) (referencing : Side) :
    ∃ m' : Model,
      (∀ cs, m.runChanges post (.addJoin j referencing :: cs) = m'.runChanges post cs) ∧
      m'.tables = m.tables ∧ m'.anonymousJoins = m.anonymousJoins ++ [j.anonymous] ∧
      m'.signaturesIn scope = m.signaturesIn scope ++ [j.signature] := by
  have hother : ∀ k ∈ m.joins, k.signature ≠ j.signature := by
    intro k hk hsignature
    have hkmem : k.anonymous ∈ m.anonymousJoins := List.mem_map_of_mem hk
    have hkwithin : k.anonymous.isWithin scope = true :=
      Join.isWithin_of_signature_eq hj (hlegible _ hkmem) hsignature.symm hwithin
    exact hnew (Model.mem_signaturesIn.2 ⟨_, hkmem, hkwithin, hsignature⟩)
  obtain ⟨edited, happly, htables, hjoins⟩ := apply_addJoin hcomplete hother referencing
  have hpostJoins : (post edited.model).anonymousJoins = m.anonymousJoins ++ [j.anonymous] :=
    (hpost.joins _).trans hjoins
  refine ⟨post edited.model, fun cs => runChanges_cons happly, (hpost.tables _).trans htables,
    hpostJoins, ?_⟩
  have hkept : j.anonymous.isWithin scope = true := hwithin
  rw [Model.signaturesIn, hpostJoins, List.filter_append, List.map_append, List.filter_singleton,
    hkept]
  rfl

/-- **Drops run through where the signatures that they name are there**, and leave the others. -/
theorem run_drops (hcs : ∀ c ∈ cs, c.kind = .dropJoin) {rest : List String}
    (h : (m.signaturesIn scope).Perm (Change.droppedSignatures cs ++ rest)) :
    ∃ m', m.runChanges post cs = .ok m' ∧ m'.tables = m.tables ∧
      (∀ j ∈ m'.anonymousJoins, j ∈ m.anonymousJoins) ∧ (m'.signaturesIn scope).Perm rest := by
  induction cs generalizing m with
  | nil => exact ⟨m, rfl, rfl, fun _ hj => hj, h⟩
  | cons c cs ih =>
    obtain ⟨j, referencing, rfl⟩ : ∃ j referencing, c = .dropJoin j referencing := by
      have hkind := hcs c List.mem_cons_self
      cases c with
      | dropJoin j referencing => exact ⟨j, referencing, rfl⟩
      | _ => cases hkind
    obtain ⟨next, hstep, htables, hsubset, hperm⟩ :=
      exists_dropStep hpost hlegible (h.mem_iff.2 List.mem_cons_self) referencing
    have hrest : (next.signaturesIn scope).Perm (Change.droppedSignatures cs ++ rest) :=
      List.perm_cons j.signature |>.1 (hperm.symm.trans h)
    obtain ⟨m', hrun, htables', hsubset', hperm'⟩ :=
      ih (fun i hi => hlegible i (hsubset i hi)) (fun d hd => hcs d (List.mem_cons_of_mem _ hd))
        hrest
    refine ⟨m', (hstep cs).trans hrun, htables'.trans htables, ?_, hperm'⟩
    intro i hi
    exact hsubset i (hsubset' i hi)

/-- **Additions run through where their tables are there and no signature is there twice**
    afterwards. -/
theorem run_adds (hcs : ∀ c ∈ cs, c.kind = .addJoin)
    (hadds : ∀ j referencing, Change.addJoin j referencing ∈ cs → j.Legible ∧
      j.isWithin scope = true ∧ ∀ s, (m.tableAt (foldName (j.entity s))).isSome = true)
    (hnodup : (m.signaturesIn scope ++ Change.addedSignatures cs).Nodup) :
    ∃ m', m.runChanges post cs = .ok m' ∧ m'.tables = m.tables ∧
      (∀ j ∈ m'.anonymousJoins, j ∈ m.anonymousJoins ∨
        ∀ s, (m.tableAt (foldName (j.entity s))).isSome = true) ∧
      m'.signaturesIn scope = m.signaturesIn scope ++ Change.addedSignatures cs := by
  induction cs generalizing m with
  | nil => exact ⟨m, rfl, rfl, fun _ hj => .inl hj, (List.append_nil _).symm⟩
  | cons c cs ih =>
    obtain ⟨j, referencing, rfl⟩ : ∃ j referencing, c = .addJoin j referencing := by
      have hkind := hcs c List.mem_cons_self
      cases c with
      | addJoin j referencing => exact ⟨j, referencing, rfl⟩
      | _ => cases hkind
    obtain ⟨hj, hwithin, hcomplete⟩ := hadds j referencing List.mem_cons_self
    have hsignatures : m.signaturesIn scope ++
        Change.addedSignatures (.addJoin j referencing :: cs) =
        (m.signaturesIn scope ++ [j.signature]) ++ Change.addedSignatures cs := by
      rw [List.append_assoc]
      rfl
    rw [hsignatures] at hnodup ⊢
    have hnew : j.signature ∉ m.signaturesIn scope := by
      intro hthere
      exact (List.nodup_append.1 hnodup.of_append_left).2.2 _ hthere _ (List.mem_singleton_self _)
        rfl
    obtain ⟨next, hstep, htables, hjoins, hnextSignatures⟩ :=
      exists_addStep hpost hlegible hj hwithin hcomplete hnew referencing
    have htableAt : ∀ key, next.tableAt key = m.tableAt key := by
      intro key
      rw [Model.tableAt, htables]
    have hlegible' : ∀ i ∈ next.anonymousJoins, i.Legible := by
      intro i hi
      rw [hjoins, List.mem_append, List.mem_singleton] at hi
      rcases hi with hold | rfl
      · exact hlegible i hold
      · exact hj.anonymous
    obtain ⟨m', hrun, htables', hjoins', hsignatures'⟩ := ih hlegible'
      (fun d hd => hcs d (List.mem_cons_of_mem _ hd))
      (fun k side hk => by simpa only [htableAt] using hadds k side (List.mem_cons_of_mem _ hk))
      (by rwa [hnextSignatures])
    refine ⟨m', (hstep cs).trans hrun, htables'.trans htables, ?_, ?_⟩
    · intro i hi
      simp only [htableAt, hjoins, List.mem_append, List.mem_singleton] at hjoins'
      rcases hjoins' i hi with (hold | rfl) | hthere
      · exact .inl hold
      · exact .inr hcomplete
      · exact .inr hthere
    · rw [hsignatures', hnextSignatures]

end Runs

end SchemaDrift
