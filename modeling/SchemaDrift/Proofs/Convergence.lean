/-
  SchemaDrift/Proofs/Convergence.lean
  ===================================
  **A plan brings its two models in line, whichever of them it changes.**

  Between models that match there is nothing to plan (`exists_plan_of_matches`), and the
  changes of a plan, read in one direction or the other and put in order of execution,
  lead to a model that matches the other one (`exists_run_of_plan`).  Together: pulling
  a reversed plan into the original model fails at no token and leaves nothing to plan
  (`pull_converges`), and so does the plan itself as it is carried out on the imported
  model (`push_converges`).

  The keys of the joins have to be unambiguous, since of two joins with one signature
  only one can be added.
-/
import SchemaDrift.Proofs.PlanMoves
import SchemaDrift.Proofs.Refusal

namespace SchemaDrift

/-! ### Nothing to plan between models that match -/

section Matching

variable {options : PlanOptions} {scope : String → Bool}
  (hscope : options.inclusion.IsScope scope)

include hscope

theorem tableChanges_of_matches {t t' : Table} (h : t.Matches t') :
    tableChanges options t t' = [] := by
  have hkeys : (t.columns.map Column.matchKey).Perm (t'.columns.map Column.matchKey) := by
    refine perm_keys h.distinct h.distinct' fun key => ?_
    have hshape := congrArg Option.isSome (h.columns key)
    rwa [Option.isSome_map, Option.isSome_map] at hshape
  have hboth : ∀ pair ∈ (difference Column.matchKey t.columns t'.columns).both,
      columnChanges t.name pair.1 pair.2 = [] := by
    rintro ⟨wanted, actual⟩ hpair
    obtain ⟨hwanted, hactual, hkey⟩ := mem_both hpair
    have hshape := h.columns wanted.matchKey
    rw [Table.columnAt, entryAt_of_mem h.distinct hwanted, hkey, Table.columnAt,
      entryAt_of_mem h.distinct' hactual] at hshape
    obtain ⟨htype, hnullable⟩ := by simpa [Column.shape] using hshape
    simp [columnChanges, htype, hnullable]
  have hkey : keyChanges options t t' = [] := by
    have hsame : sameNames t.primaryKey t'.primaryKey = true := sameNames_iff.2 h.key
    rw [keyChanges, hsame, Bool.or_true, if_pos rfl]
  simp only [tableChanges, columnDifference, hscope.columnsIn, onlyOriginal_eq_nil_of_perm hkeys,
    onlyImported_eq_nil_of_perm hkeys, hkey, List.map_nil, List.nil_append, List.append_nil]
  exact List.flatMap_eq_nil_iff.2 hboth

theorem slotChanges_of_matches {m m' : Model} (h : m.Matches scope m') :
    slotChanges options m m' = [] := by
  have hdistinct : ∀ {m : Model}, (m.tables.map Table.matchKey).Nodup →
      ((m.tablesIn options.inclusion).map Table.matchKey).Nodup :=
    fun hm => hm.sublist (List.filter_sublist.map _)
  have hat : ∀ (m : Model) (key : String),
      entryAt Table.matchKey (m.tablesIn options.inclusion) key =
        if scope key then m.tableAt key else none := by
    intro m key
    rw [hscope.tablesIn, entryAt_filter]
  have hkeys : ((m.tablesIn options.inclusion).map Table.matchKey).Perm
      ((m'.tablesIn options.inclusion).map Table.matchKey) := by
    refine perm_keys (hdistinct h.distinct) (hdistinct h.distinct') fun key => ?_
    rw [hat, hat]
    split
    next hkey => exact isSome_of_rel (h.tables key hkey)
    next => rfl
  have hboth : ∀ pair ∈ (tableDifference options.inclusion m m').both,
      tableChanges options pair.1 pair.2 = [] := by
    rintro ⟨t, t'⟩ hpair
    obtain ⟨ht, ht', hkey⟩ := mem_both hpair
    have hfound := entryAt_of_mem (hdistinct h.distinct) ht
    have hfound' := entryAt_of_mem (hdistinct h.distinct') ht'
    rw [← hkey] at hfound'
    rw [hat] at hfound hfound'
    split at hfound
    next hin =>
      rw [if_pos hin] at hfound'
      have hrel := h.tables _ hin
      rw [hfound, hfound'] at hrel
      cases hrel with
      | some hmatches => exact tableChanges_of_matches hscope hmatches
    next => cases hfound
  simp only [slotChanges, tableDifference, onlyOriginal_eq_nil_of_perm hkeys,
    onlyImported_eq_nil_of_perm hkeys, List.map_nil, List.nil_append]
  exact List.flatMap_eq_nil_iff.2 hboth

/-- Between models that match there is nothing to plan. -/
theorem exists_plan_of_matches {m m' : Model} (h : m.Matches scope m') :
    ∃ q, plan options m m' = .ok q ∧ q.tokens = [] := by
  have hsignatures : ((m.joinsIn options.inclusion).map Join.signature).Perm
      ((m'.joinsIn options.inclusion).map Join.signature) := by
    rw [hscope.map_signature_joinsIn, hscope.map_signature_joinsIn]
    exact h.joins
  have hjoins : joinChanges options m m' = .ok [] := by
    rw [joinChanges, joinDifference]
    simp only [onlyOriginal_eq_nil_of_perm hsignatures, onlyImported_eq_nil_of_perm hsignatures]
    cases options.skipJoins <;> rfl
  refine ⟨_, plan_eq_ok.2 ⟨?_, ?_, [], hjoins, rfl⟩, ?_⟩
  · exact Model.validateJoins_eq_ok.2 h.complete
  · exact Model.validateJoins_eq_ok.2 h.complete'
  · rw [slotChanges_of_matches hscope h]
    rfl

end Matching

/-! ### Running a plan -/

section Running

variable {options : PlanOptions} {scope : String → Bool} (hjoins : options.skipJoins = false)
  (hkeys : options.skipKeys = false) (hscope : options.inclusion.IsScope scope)
  {original imported : Model} (horiginal : original.WellFormed) (himported : imported.WellFormed)
  {p : Plan} (hplan : plan options original imported = .ok p) (hunambiguous : p.ambiguous = [])

include hscope hplan hunambiguous in
theorem nodup_signaturesIn (d : Direction) :
    ((d.goal original imported).signaturesIn scope).Nodup := by
  rw [ambiguous_of_plan hplan] at hunambiguous
  obtain ⟨-, -, hsignatures⟩ := ambiguousKeys_eq_nil.1 hunambiguous
  obtain ⟨hnodup, hnodup'⟩ := nodup_keys_of_unambiguous hsignatures
  rw [hscope.map_signature_joinsIn] at hnodup hnodup'
  exact d.goal_of (P := fun m : Model => (m.signaturesIn scope).Nodup) hnodup hnodup'

include hjoins hkeys hscope horiginal himported hplan hunambiguous

/-- **The changes of a plan, in order of execution, run through and bring the models in line**,
    in either direction. -/
theorem exists_run_of_plan {post : Model → Model} (hpost : Settling post) (d : Direction)
    {cs : List Change} (hperm : cs.Perm (d.read p.changes)) (hinOrder : Change.InOrder cs) :
    ∃ m, (d.start original imported).runChanges post cs = .ok m ∧
      m.Matches scope (d.goal original imported) := by
  have hmoves := modelMoves_of_plan hjoins hkeys hscope horiginal himported hplan d
  have hnodup := nodup_signaturesIn hscope hplan hunambiguous d
  exact run_of_moves (hmoves.perm hperm) (d.start_of horiginal himported)
    (d.goal_of horiginal himported) hpost hnodup hinOrder

end Running

/-! ### A pair of models

They differ in every way that a plan knows: a table, a column and a join on either side only, a
type, a nullability either way, and a key that a column joins and another one leaves. -/

/-- A model as it is kept up to date by hand. -/
def sampleModel : Model where
  tables :=
    [{ name := "ARTIST"
       columns := [⟨"ID", .integer, false, true⟩, ⟨"NAME", .text, true, false⟩]
       primaryKey := ["ID"] },
     { name := "ALBUM"
       columns :=
         [⟨"ID", .integer, false, true⟩, ⟨"ARTIST_ID", .bigInt, false, false⟩,
          ⟨"RELEASED", .date, true, false⟩]
       primaryKey := ["ID"] },
     { name := "GENRE", columns := [⟨"NAME", .text, true, false⟩] }]
  joins :=
    [{ entities := ⟨"ALBUM", "ARTIST"⟩
       names := ⟨some "artist", none⟩
       cardinality := .manyToOne
       dependentKey := .none
       condition := .single ⟨"ARTIST_ID", "ID"⟩ }]

def sampleImport : Model where
  tables :=
    [{ name := "album"
       columns :=
         [⟨"id", .integer, false, true⟩, ⟨"artist_id", .integer, true, false⟩,
          ⟨"title", .text, true, false⟩]
       primaryKey := ["id"] },
     { name := "artist"
       columns := [⟨"id", .integer, true, false⟩, ⟨"name", .varchar 120, false, true⟩]
       primaryKey := ["name"] },
     { name := "track"
       columns := [⟨"id", .integer, false, true⟩, ⟨"album_id", .integer, true, false⟩]
       primaryKey := ["id"] }]
  joins :=
    [{ entities := ⟨"album", "track"⟩
       names := ⟨none, none⟩
       cardinality := .oneToMany
       dependentKey := .none
       condition := .single ⟨"id", "album_id"⟩ }]

def samplePlan : Plan := (plan {} sampleModel sampleImport).toOption.getD {}

theorem plan_sample : plan {} sampleModel sampleImport = .ok samplePlan := by decide +kernel

/-! ### Pulling a plan into the original model -/

/-- A batch of tokens for the model that all succeed is a run of their changes. -/
theorem run_toModel (d : Dialect) {ts : List Token} (hts : ∀ t ∈ ts, t.direction = .toModel)
    {x : Execution} {m : Model}
    (h : x.model.runChanges Model.compile (ts.map Token.change) = .ok m) :
    Execution.run d x ts =
      { report := { x.report with modelChanges := x.report.modelChanges + ts.length }
        model := m } := by
  let refusal : Change → Option SchemaError := fun _ => none
  have hall : (ts.map Token.change).filter (fun c => (refusal c).isNone) = ts.map Token.change :=
    List.filter_eq_self.2 fun _ _ => rfl
  have hfailures : ts.filterMap (failureOf refusal) = [] := failures_eq_nil_iff.2 fun _ _ => rfl
  have hcount := countP_add_failures refusal ts
  rw [hfailures, List.length_nil, Nat.add_zero] at hcount
  rw [run_refusing d refusal (fun _ => True) hts (fun _ _ _ h => nomatch h)
    (fun _ _ _ _ _ _ => trivial) trivial (hall.symm ▸ h), hcount, hfailures, List.append_nil]

theorem Plan.changes_reversed (p : Plan) :
    ((sortTokens p.reversed.tokens).map Token.change).Perm (p.changes.map Change.dual) := by
  have hperm : (sortTokens p.reversed.tokens).Perm (p.tokens.map Token.reverse) :=
    (perm_sortTokens _).trans (perm_sortTokens _)
  refine (hperm.map Token.change).trans (.of_eq ?_)
  rw [Plan.changes, List.map_map, List.map_map]
  rfl

theorem direction_reversed {options : PlanOptions} {original imported : Model} {p : Plan}
    (h : plan options original imported = .ok p) :
    ∀ t ∈ sortTokens p.reversed.tokens, t.direction = .toModel := by
  obtain ⟨-, -, ofJoins, -, rfl⟩ := plan_eq_ok.1 h
  intro t ht
  obtain ⟨u, hu, rfl⟩ := List.mem_map.1 ((perm_sortTokens _).subset ((perm_sortTokens _).subset ht))
  obtain ⟨c, _, rfl⟩ := List.mem_map.1 ((perm_sortTokens _).subset hu)
  rfl

/-- **Pulling converges.**  The reversed plan fails at no token, changes the original model once
    for each of them, and leaves nothing to plan between it and the imported model. -/
theorem pull_converges {options : PlanOptions} {scope : String → Bool}
    (hjoins : options.skipJoins = false) (hkeys : options.skipKeys = false)
    (hscope : options.inclusion.IsScope scope) {original imported : Model}
    (horiginal : original.WellFormed) (himported : imported.WellFormed) {p : Plan}
    (hplan : plan options original imported = .ok p) (hunambiguous : p.ambiguous = [])
    (d : Dialect) :
    (execute d p.reversed.tokens original).report.failures = [] ∧
      (execute d p.reversed.tokens original).report.modelChanges = p.tokens.length ∧
      ∃ q, plan options (execute d p.reversed.tokens original).model imported = .ok q ∧
        q.tokens = [] := by
  obtain ⟨m, hrun, hmatches⟩ := exists_run_of_plan hjoins hkeys hscope horiginal himported hplan
    hunambiguous settling_compile .toModel p.changes_reversed (Change.inOrder_of_sortTokens _)
  have hexecute : execute d p.reversed.tokens original =
      { report := { modelChanges := p.tokens.length }, model := m } := by
    have hlength : (sortTokens p.reversed.tokens).length = p.tokens.length := by
      rw [(perm_sortTokens _).length_eq, Plan.reversed, (perm_sortTokens _).length_eq,
        List.length_map]
    rw [execute, run_toModel d (direction_reversed hplan) hrun, hlength, Nat.zero_add]
  rw [hexecute]
  exact ⟨rfl, rfl, exists_plan_of_matches hscope hmatches⟩

theorem pull_converges_sample :
    samplePlan.tokens.length = 12 ∧
      (execute .sqlite samplePlan.reversed.tokens sampleModel).report.failures = [] ∧
      (execute .sqlite samplePlan.reversed.tokens sampleModel).report.modelChanges =
        samplePlan.tokens.length ∧
      ∃ q, plan {} (execute .sqlite samplePlan.reversed.tokens sampleModel).model sampleImport =
        .ok q ∧ q.tokens = [] :=
  ⟨by decide +kernel, pull_converges rfl rfl Inclusion.isScope_all (by decide +kernel)
    (by decide +kernel) plan_sample (by decide +kernel) .sqlite⟩

/-! ### Carrying a plan out on the imported model -/

/-- Applies changes to a model, one after the other. -/
def Model.applyAll (cs : List Change) (m : Model) : Except SchemaError Model :=
  cs.foldlM (fun m c => (c.apply m).map Edited.model) m

/-- **Pushing converges.**  The changes of a plan, in its order, can be applied to the imported
    model one after the other, and leave nothing to plan between the original model and it. -/
theorem push_converges {original imported : Model} (horiginal : original.WellFormed)
    (himported : imported.WellFormed) {p : Plan} (hplan : plan {} original imported = .ok p)
    (hunambiguous : p.ambiguous = []) :
    ∃ result, imported.applyAll (p.tokens.map Token.change) = .ok result ∧
      ∃ q, plan {} original result = .ok q ∧ q.tokens = [] := by
  have hinOrder : Change.InOrder p.changes := by
    obtain ⟨-, -, ofJoins, -, rfl⟩ := plan_eq_ok.1 hplan
    exact Change.inOrder_of_sortTokens _
  obtain ⟨m, hrun, hmatches⟩ := exists_run_of_plan rfl rfl Inclusion.isScope_all horiginal
    himported hplan hunambiguous settling_id .toDatabase (List.Perm.refl _) hinOrder
  exact ⟨m, hrun, exists_plan_of_matches Inclusion.isScope_all hmatches.symm⟩

theorem push_converges_sample :
    ∃ result, sampleImport.applyAll (samplePlan.tokens.map Token.change) = .ok result ∧
      ∃ q, plan {} sampleModel result = .ok q ∧ q.tokens = [] :=
  push_converges (by decide +kernel) (by decide +kernel) plan_sample (by decide +kernel)

end SchemaDrift
