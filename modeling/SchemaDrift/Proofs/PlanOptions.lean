/-
  SchemaDrift/Proofs/PlanOptions.lean
  ===================================
  **What is skipped is left out of a plan, and nothing else becomes of it.**

  The two options that skip changes act at different places: a key is left alone where two
  tables are compared, a join is not added where the changes of the joins are put together.
  Both come down to leaving changes of one kind out of the list of all changes
  (`slotChanges_eq_filter`, `joinChanges_eq_filter`).  What is not added could have been
  added: once both models are checked, no addition fails.  As the order of execution does
  not depend on what else there is (`filter_sortTokens`), the tokens that remain are those
  of the full plan, in their order.  Main statement: `plan_eq_map_full`.
-/
import SchemaDrift.Proofs.PlanFailure

namespace SchemaDrift

namespace PlanOptions

/-- The same comparison with nothing skipped. -/
def full (options : PlanOptions) : PlanOptions := { inclusion := options.inclusion }

theorem inclusion_full (options : PlanOptions) : options.full.inclusion = options.inclusion := rfl

/-- Whether changes of a kind are planned. -/
def plans (options : PlanOptions) : ChangeKind → Bool
  | .addJoin => !options.skipJoins
  | .setPrimaryKey => !options.skipKeys
  | _ => true

end PlanOptions

section Skipping

variable (options : PlanOptions)

/-! ### Changes of tables -/

theorem plans_of_mem_columnChanges {table : String} {wanted actual : Column} {c : Change}
    (h : c ∈ columnChanges table wanted actual) : options.plans c.kind = true := by
  rcases kind_of_mem_columnChanges h with hkind | hkind | hkind
  all_goals
    rw [hkind]
    rfl

theorem keyChanges_eq_filter (original imported : Table) :
    keyChanges options original imported =
      (keyChanges options.full original imported).filter fun c => options.plans c.kind := by
  have hfull : keyChanges options.full original imported =
      if sameNames original.primaryKey imported.primaryKey then []
      else [.setPrimaryKey original.name imported.primaryKey original.primaryKey] := rfl
  rw [hfull, keyChanges]
  cases hkeys : options.skipKeys
  all_goals
    cases sameNames original.primaryKey imported.primaryKey <;>
      simp [PlanOptions.plans, Change.kind, hkeys]

theorem tableChanges_eq_filter (original imported : Table) :
    tableChanges options original imported =
      (tableChanges options.full original imported).filter fun c => options.plans c.kind := by
  rw [tableChanges, tableChanges, List.filter_append, ← keyChanges_eq_filter]
  refine congrArg (· ++ _) (List.filter_eq_self.2 ?_).symm
  intro c hc
  simp only [List.mem_append, List.mem_map, List.mem_flatMap] at hc
  rcases hc with (⟨x, -, rfl⟩ | ⟨x, -, rfl⟩) | ⟨pair, -, hpair⟩
  · rfl
  · rfl
  · exact plans_of_mem_columnChanges options hpair

theorem slotChanges_eq_filter (original imported : Model) :
    slotChanges options original imported =
      (slotChanges options.full original imported).filter fun c => options.plans c.kind := by
  rw [slotChanges, slotChanges, List.filter_append, List.filter_flatMap]
  refine congrArg₂ (· ++ ·) (List.filter_eq_self.2 fun c hc => ?_).symm ?_
  · simp only [List.mem_append, List.mem_map] at hc
    rcases hc with ⟨t, -, rfl⟩ | ⟨t, -, rfl⟩
    · rfl
    · rfl
  · refine congrArg (List.flatMap · _) (funext fun pair => ?_)
    exact tableChanges_eq_filter options pair.1 pair.2

/-! ### Changes of joins -/

theorem joinChanges_eq_filter {original : Model} (horiginal : original.validateJoins = .ok ())
    (imported : Model) :
    joinChanges options original imported =
      (joinChanges options.full original imported).map fun cs =>
        cs.filter fun c => options.plans c.kind := by
  obtain ⟨additions, hkind, hadditions⟩ :=
    exists_additions horiginal options.inclusion imported
  rw [joinChanges_eq_map options hadditions, joinChanges_eq_map options.full hadditions,
    PlanOptions.inclusion_full]
  cases hdrops : (joinDifference options.inclusion original imported).onlyImported.mapM
      (Change.dropJoinOf · imported original) with
  | error e => rfl
  | ok drops =>
    have hdropped : drops.filter (fun c => options.plans c.kind) = drops := by
      refine List.filter_eq_self.2 fun c hc => ?_
      obtain ⟨j, -, hj⟩ := exists_of_mem_forall₂ (mapM_eq_ok.1 hdrops) hc
      obtain ⟨k, referencing, -, -, rfl⟩ := dropJoinOf_eq_ok.1 hj
      rfl
    have hadded : additions.filter (fun c => options.plans c.kind) =
        if options.skipJoins then [] else additions := by
      have hsame : ∀ c ∈ additions, options.plans c.kind = !options.skipJoins := by
        intro c hc
        rw [hkind c hc]
        rfl
      cases hjoins : options.skipJoins with
      | false => exact List.filter_eq_self.2 fun c hc => by rw [hsame c hc, hjoins]; rfl
      | true => exact List.filter_eq_nil_iff.2 fun c hc => by rw [hsame c hc, hjoins]; simp
    refine congrArg Except.ok ?_
    change drops ++ _ = (drops ++ additions).filter _
    rw [List.filter_append, hdropped, hadded]

/-! ### Plans -/

/-- **A plan that skips changes is the full plan without them**: it has the same ambiguous keys and,
    in the same order, the tokens of all changes that it does not skip, and it fails where the full
    plan fails, with the same error. -/
theorem plan_eq_map_full (original imported : Model) :
    plan options original imported = (plan options.full original imported).map fun p =>
      { p with tokens := p.tokens.filter fun t => options.plans t.kind } := by
  rw [plan_eq_bind, plan_eq_bind]
  cases horiginal : original.validateJoins with
  | error e => rfl
  | ok =>
    cases imported.validateJoins with
    | error e => rfl
    | ok =>
      change (joinChanges options original imported).map _ =
        ((joinChanges options.full original imported).map _).map _
      rw [joinChanges_eq_filter options horiginal]
      cases joinChanges options.full original imported with
      | error e => rfl
      | ok ofJoins =>
        have htokens : (sortTokens ((slotChanges options.full original imported ++ ofJoins).map
            (Token.mk .toDatabase))).filter (fun t => options.plans t.kind) =
            sortTokens ((slotChanges options original imported ++
              ofJoins.filter fun c => options.plans c.kind).map (Token.mk .toDatabase)) := by
          rw [filter_sortTokens, List.filter_map, slotChanges_eq_filter options original imported,
            ← List.filter_append]
          rfl
        exact congrArg (fun tokens => Except.ok (Plan.mk tokens _)) htokens.symm

end Skipping

end SchemaDrift
