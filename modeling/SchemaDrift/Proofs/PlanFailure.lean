/-
  SchemaDrift/Proofs/PlanFailure.lean
  ===================================
  **When planning fails, and with which error.**

  A plan looks for the tables of joins and for nothing else that might be missing.  The
  first end of a join that has no table in its model fails it (`errorOf_validateJoins`).
  Once every join has its tables, the side of a foreign key can always be told, so that a
  join to be added is no cause of failure, and a join to be dropped is one only where it
  cannot be made again in the spelling of the original model (`errorOf_dropJoinOf`): it has
  no pair of columns, or a table without a name.

  Which error is reported is therefore a matter of what comes first in the joins of the
  original model, in those of the import, and in the joins to be dropped (`errorOf_plan`).
  Neither the tables, which may repeat a name, nor the filter nor what is skipped make a
  difference beyond the choice of these joins.  Main statement: `plan_failures`.
-/
import SchemaDrift.Proofs.EmptyPlan

namespace SchemaDrift

/-! ### Ends without a table -/

namespace Model

/-- The ends of joins that have no table in the model, in the order of the joins and the left end of
    a join before its right one. -/
def danglingEnds (m : Model) : List (Join × Side) :=
  m.joins.flatMap fun j =>
    (Side.both.filter fun s => (m.findTable? (j.entity s)).isNone).map fun s => (j, s)

theorem mem_danglingEnds {m : Model} {j : Join} {s : Side} :
    (j, s) ∈ m.danglingEnds ↔ j ∈ m.joins ∧ m.findTable? (j.entity s) = none := by
  have hboth : s ∈ Side.both := by cases s <;> decide
  simp [danglingEnds, List.mem_flatMap, hboth]

theorem danglingEnds_eq_nil {m : Model} : m.danglingEnds = [] ↔
    ∀ j ∈ m.joins, ∀ s, (m.findTable? (j.entity s)).isSome = true := by
  rw [List.eq_nil_iff_forall_not_mem]
  simp only [Prod.forall, mem_danglingEnds, not_and, ← Option.isSome_iff_ne_none, ← ne_eq]
  exact ⟨fun h j hj s => h j s hj, fun h j s hj => h j hj s⟩

end Model

/-- What is said of an end without a table. -/
def danglingError (dangling : Join × Side) : SchemaError :=
  .danglingJoin dangling.1.display (dangling.1.entity dangling.2)

theorem errorOf_tableOf (m : Model) (j : Join) (s : Side) : errorOf (m.tableOf j s) =
    if (m.findTable? (j.entity s)).isNone then some (danglingError (j, s)) else none := by
  rw [Model.tableOf]
  cases m.findTable? (j.entity s) <;> rfl

/-- The check of a model reports the first end that has no table. -/
theorem errorOf_validateJoins (m : Model) :
    errorOf m.validateJoins = m.danglingEnds.head?.map danglingError := by
  rw [Model.validateJoins, errorOf_forM, Model.danglingEnds, List.head?_flatMap,
    List.map_findSome?]
  refine congrArg (m.joins.findSome? ·) (funext fun j => ?_)
  rw [errorOf_forM, Function.comp_apply, List.head?_map, List.head?_filter, Option.map_map,
    List.find?_eq_findSome?_guard, List.map_findSome?]
  refine congrArg (Side.both.findSome? ·) (funext fun s => ?_)
  rw [errorOf_map, errorOf_tableOf, Function.comp_apply, Option.guard_def, apply_ite (Option.map _)]
  rfl

/-! ### Joins that cannot be made again -/

namespace Join

/-- Why a join cannot be made from its parts. -/
def fault? (j : Join) : Option ConfigurationFault :=
  if j.condition.pairs = [] then some .noColumnPairs
  else if j.entities.toList.any isBlank then some .blankEndpoint
  else none

/-- A join without a pair of columns, or with a table whose name is blank. -/
def IsFaulty (j : Join) : Prop := j.condition.pairs = [] ∨ ∃ s, isBlank (j.entity s) = true

theorem isSome_fault? {j : Join} : j.fault?.isSome = true ↔ j.IsFaulty := by
  have hblank : j.entities.toList.any isBlank = true ↔ ∃ s, isBlank (j.entity s) = true := by
    rw [← Bool.not_eq_false, any_isBlank_eq_false, not_forall]
    simp only [Bool.not_eq_false]
  rw [fault?, IsFaulty, ← hblank]
  split <;> simp [*]

theorem isSome_findSome?_fault? {js : List Join} :
    (js.findSome? fault?).isSome = true ↔ ∃ j ∈ js, j.IsFaulty := by
  rw [List.findSome?_isSome_iff]
  simp only [isSome_fault?]

theorem errorOf_ofPairs (entities : Sides String) (names : Sides (Option String))
    (cardinality : Cardinality) (dependentKey : DependentKey) (pairs : List ColumnPair) :
    errorOf (ofPairs entities names cardinality dependentKey pairs) =
      (if pairs = [] then some .noColumnPairs
        else if entities.toList.any isBlank then some .blankEndpoint else none).map
          SchemaError.configuration := by
  rw [ofPairs]
  by_cases hpairs : pairs = []
  · rw [hpairs, if_pos rfl]
    rfl
  · obtain ⟨condition, hcondition⟩ := exists_condition hpairs
    rw [hcondition, if_neg hpairs]
    change errorOf (Join.make entities names cardinality dependentKey condition) = _
    rw [Join.make]
    split <;> rfl

/-- A join is respelled unless it has a fault of its own, whatever the model has. -/
theorem errorOf_respell (j : Join) (m : Model) :
    errorOf (j.respell m) = j.fault?.map .configuration := by
  have hnil : j.respelledPairs m = [] ↔ j.condition.pairs = [] := List.map_eq_nil_iff
  simp only [respell_eq_map_ofPairs, errorOf_map, errorOf_ofPairs, any_isBlank_respelled, hnil]
  rfl

end Join

/-! ### Joins of a plan -/

/-- In a model in which every join has its tables, each of them has a referencing side. -/
theorem exists_referencingSide_of_mem {m : Model} (hvalid : m.validateJoins = .ok ()) {j : Join}
    (hj : j ∈ m.joins) : ∃ s, j.referencingSide m = .ok s :=
  exists_referencingSide (Model.validateJoins_eq_ok.1 hvalid j hj)

theorem errorOf_addJoinOf {m : Model} (hvalid : m.validateJoins = .ok ()) {j : Join}
    (hj : j ∈ m.joins) : errorOf (Change.addJoinOf j m) = none := by
  obtain ⟨s, hs⟩ := exists_referencingSide_of_mem hvalid hj
  rw [Change.addJoinOf, hs]
  rfl

theorem errorOf_dropJoinOf {imported : Model} (hvalid : imported.validateJoins = .ok ()) {j : Join}
    (hj : j ∈ imported.joins) (original : Model) :
    errorOf (Change.dropJoinOf j imported original) = j.fault?.map .configuration := by
  obtain ⟨s, hs⟩ := exists_referencingSide_of_mem hvalid hj
  rw [Change.dropJoinOf, hs]
  change errorOf ((j.respell original).map (Change.dropJoin · s)) = _
  rw [errorOf_map, j.errorOf_respell]

section Plan

variable {options : PlanOptions} {original imported : Model}

/-- The additions of joins are there once every join of the original model has its tables. -/
theorem exists_additions (horiginal : original.validateJoins = .ok ()) (f : Inclusion)
    (imported : Model) : ∃ additions, (∀ c ∈ additions, c.kind = .addJoin) ∧
      (joinDifference f original imported).onlyOriginal.mapM (Change.addJoinOf · original) =
        .ok additions := by
  have hnone : errorOf ((joinDifference f original imported).onlyOriginal.mapM
      (Change.addJoinOf · original)) = none := by
    rw [errorOf_mapM, List.findSome?_eq_none_iff]
    intro j hj
    exact errorOf_addJoinOf horiginal (List.mem_of_mem_filter (mem_of_onlyOriginal hj))
  obtain ⟨additions, hadditions⟩ := errorOf_eq_none.1 hnone
  refine ⟨additions, fun c hc => ?_, hadditions⟩
  obtain ⟨j, -, hj⟩ := exists_of_mem_forall₂ (mapM_eq_ok.1 hadditions) hc
  obtain ⟨referencing, -, rfl⟩ := addJoinOf_eq_ok.1 hj
  rfl

theorem joinChanges_eq_map (options : PlanOptions) {additions : List Change}
    (h : (joinDifference options.inclusion original imported).onlyOriginal.mapM
      (Change.addJoinOf · original) = .ok additions) :
    joinChanges options original imported =
      ((joinDifference options.inclusion original imported).onlyImported.mapM
        (Change.dropJoinOf · imported original)).map fun drops =>
          drops ++ if options.skipJoins then [] else additions := by
  have hadds : (joinsToAdd options original imported).mapM (Change.addJoinOf · original) =
      .ok (if options.skipJoins then [] else additions) := by
    rw [joinsToAdd]
    split
    · rfl
    · exact h
  rw [joinChanges_eq_bind, hadds]
  rfl

theorem errorOf_joinChanges (horiginal : original.validateJoins = .ok ())
    (himported : imported.validateJoins = .ok ()) :
    errorOf (joinChanges options original imported) =
      ((joinDifference options.inclusion original imported).onlyImported.findSome?
        Join.fault?).map .configuration := by
  obtain ⟨additions, -, hadditions⟩ := exists_additions horiginal options.inclusion imported
  rw [joinChanges_eq_map options hadditions, errorOf_map, errorOf_mapM, List.map_findSome?,
    ← List.head?_filterMap, ← List.head?_filterMap]
  refine congrArg List.head? (List.filterMap_congr fun j hj => ?_)
  exact errorOf_dropJoinOf himported (List.mem_of_mem_filter (mem_of_onlyImported hj)) original

/-- **The error of a plan** is that of the first end without a table, of the original model or of
    the import, and without such ends that of the first faulty join to be dropped. -/
theorem errorOf_plan (options : PlanOptions) (original imported : Model) :
    errorOf (plan options original imported) =
      ((original.danglingEnds ++ imported.danglingEnds).head?.map danglingError).or
        (((joinDifference options.inclusion original imported).onlyImported.findSome?
          Join.fault?).map .configuration) := by
  rw [List.head?_append, Option.map_or, ← errorOf_validateJoins, ← errorOf_validateJoins,
    Option.or_assoc, plan_eq_bind]
  refine errorOf_bind fun _ horiginal => errorOf_bind fun _ himported => ?_
  rw [errorOf_map, errorOf_joinChanges horiginal himported]

/-- **When planning fails**: where a join of one of the models has an end without a table, with the
    first such end, those of the original model before those of the import; otherwise where a join
    that only the import has is faulty; and in no other case and no other way. -/
theorem plan_failures (options : PlanOptions) (original imported : Model) :
    let outcome := plan options original imported
    let complete := ∀ m ∈ [original, imported], ∀ j ∈ m.joins, ∀ s,
      (m.findTable? (j.entity s)).isSome = true
    let drops := (joinDifference options.inclusion original imported).onlyImported
    ((∃ join table, outcome = .error (.danglingJoin join table)) ↔ ¬ complete) ∧
      (∀ join table, outcome = .error (.danglingJoin join table) ↔
        ∃ j s, (original.danglingEnds ++ imported.danglingEnds).head? = some (j, s) ∧
          j.display = join ∧ j.entity s = table) ∧
      ((∃ fault, outcome = .error (.configuration fault)) ↔ complete ∧ ∃ j ∈ drops, j.IsFaulty) ∧
      ((∃ p, outcome = .ok p) ↔ complete ∧ ∀ j ∈ drops, ¬ j.IsFaulty) ∧
      ∀ e, outcome = .error e →
        (∃ join table, e = .danglingJoin join table) ∨ ∃ fault, e = .configuration fault := by
  intro outcome complete drops
  have herror : errorOf outcome =
      ((original.danglingEnds ++ imported.danglingEnds).head?.map danglingError).or
        ((drops.findSome? Join.fault?).map .configuration) :=
    errorOf_plan options original imported
  have hcomplete : complete ↔
      (original.danglingEnds ++ imported.danglingEnds).head? = none := by
    simp only [complete, List.head?_eq_none_iff, List.append_eq_nil_iff,
      Model.danglingEnds_eq_nil, List.forall_mem_cons]
    exact and_congr_right fun _ => and_iff_left (List.forall_mem_nil _)
  have hfaulty : (∃ j ∈ drops, j.IsFaulty) ↔ (drops.findSome? Join.fault?).isSome = true :=
    Join.isSome_findSome?_fault?.symm
  have hsound : (∀ j ∈ drops, ¬ j.IsFaulty) ↔ ¬ ∃ j ∈ drops, j.IsFaulty := by
    simp only [not_exists, not_and]
  -- what comes first among the ends, and among the faults, decides
  rw [hsound, hfaulty, hcomplete]
  simp only [← errorOf_eq_some, ← errorOf_eq_none, herror]
  cases (original.danglingEnds ++ imported.danglingEnds).head? with
  | some first =>
    obtain ⟨j, s⟩ := first
    simp [danglingError]
  | none => cases drops.findSome? Join.fault? <;> simp

/-- A join without pairs cannot be dropped. -/
example :
    plan {} { tables := [.named "ARTIST"] }
      { tables := [.named "Artist"]
        joins :=
          [{ entities := ⟨"ARTIST", "artist"⟩, names := ⟨none, none⟩, cardinality := .oneToOne
             dependentKey := .none, condition := .composite [] }] } =
      .error (.configuration .noColumnPairs) := by
  decide +kernel

end Plan

end SchemaDrift
