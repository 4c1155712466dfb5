/-
  SchemaDrift/Proofs/Batch.lean
  =============================
  **What becomes of each token of a batch.**

  The outcome of a token for the database is known from its change alone, and that of a
  token for the model from the model as the tokens for the model before it leave it
  (`Model.afterTokens`).  So every token of a batch can be judged on its own (`outcomes`),
  and the run of the batch is put together from the judgements: one token (`step_eq`), then
  all of them by induction (`run_eq`).

  Only a token that is applied moves the model.  Any other token, one for the database or
  one that fails, can be taken out of the batch, and everything but its own entry in the
  report stays (`outcomes_without`).  Main statement: `execute_accounts`.
-/
import SchemaDrift.Execution
import SchemaDrift.Proofs.Order

namespace SchemaDrift

/-! ### The model along a batch -/

/-- The model after a change was tried: changed and compiled, or as it was if it refuses. -/
def Model.tryChange (m : Model) (c : Change) : Model :=
  match c.apply m with
  | .ok edited => edited.model.compile
  | .error _ => m

/-- The model after the tokens for the model among some tokens. -/
def Model.afterTokens (m : Model) (ts : List Token) : Model :=
  ((ts.filter (!·.isToDatabase)).map Token.change).foldl Model.tryChange m

theorem Model.afterTokens_append (m : Model) (ts us : List Token) :
    m.afterTokens (ts ++ us) = (m.afterTokens ts).afterTokens us := by
  rw [afterTokens, List.filter_append, List.map_append, List.foldl_append]
  rfl

theorem Model.afterTokens_cons (m : Model) (t : Token) (ts : List Token) :
    m.afterTokens (t :: ts) = (m.afterTokens [t]).afterTokens ts :=
  m.afterTokens_append [t] ts

theorem Model.afterTokens_singleton (m : Model) (t : Token) :
    m.afterTokens [t] = if t.isToDatabase then m else m.tryChange t.change := by
  rw [afterTokens]
  cases hdirection : t.isToDatabase <;> simp [hdirection]

/-! ### Outcomes -/

/-- What can become of a token. -/
inductive Outcome where
  | rendered (statements : List Statement)
  | applied
  | failed (error : SchemaError)
deriving Repr, DecidableEq

/-- What becomes of a token, given the model at its time. -/
def Token.outcome (d : Dialect) (m : Model) (t : Token) : Outcome :=
  if t.isToDatabase then
    match d.statements t.change with
    | .ok statements => .rendered statements
    | .error e => .failed e
  else
    match t.change.apply m with
    | .ok _ => .applied
    | .error e => .failed e

/-- The tokens of a batch, each with what becomes of it after those before it. -/
def outcomes (d : Dialect) (m : Model) (ts : List Token) : List (Token × Outcome) :=
  ts.mapIdx fun i t => (t, t.outcome d (m.afterTokens (ts.take i)))

theorem outcomes_cons (d : Dialect) (m : Model) (t : Token) (ts : List Token) :
    outcomes d m (t :: ts) = (t, t.outcome d m) :: outcomes d (m.afterTokens [t]) ts := by
  have hlater : ∀ i, m.afterTokens ((t :: ts).take (i + 1)) =
      (m.afterTokens [t]).afterTokens (ts.take i) := by
    intro i
    rw [List.take_succ_cons, Model.afterTokens_cons]
  rw [outcomes, List.mapIdx_cons, outcomes]
  simp only [hlater]
  rfl

theorem outcomes_append (d : Dialect) (m : Model) (ts us : List Token) :
    outcomes d m (ts ++ us) = outcomes d m ts ++ outcomes d (m.afterTokens ts) us := by
  induction ts generalizing m with
  | nil => rfl
  | cons t ts ih =>
    rw [List.cons_append, outcomes_cons, outcomes_cons, ih, ← Model.afterTokens_cons,
      List.cons_append]

theorem length_outcomes (d : Dialect) (m : Model) (ts : List Token) :
    (outcomes d m ts).length = ts.length := List.length_mapIdx

/-- Only a token that is applied moves the model. -/
theorem afterTokens_of_not_applied {d : Dialect} {m : Model} {t : Token}
    (h : t.outcome d m ≠ .applied) : m.afterTokens [t] = m := by
  rw [Model.afterTokens_singleton]
  split
  next => rfl
  next hdirection =>
    rw [Token.outcome, if_neg hdirection] at h
    rw [Model.tryChange]
    cases happly : t.change.apply m with
    | ok edited => simp [happly] at h
    | error e => rfl

/-- A token that is not applied can be taken out of a batch: the others fare as they did. -/
theorem outcomes_without {d : Dialect} {m : Model} {before after : List Token} {t : Token}
    (h : t.outcome d (m.afterTokens before) ≠ .applied) :
    outcomes d m (before ++ after) =
      (outcomes d m (before ++ t :: after)).eraseIdx before.length := by
  have hlength := length_outcomes d m before
  rw [outcomes_append, outcomes_append, outcomes_cons, afterTokens_of_not_applied h,
    List.eraseIdx_append_of_length_le (Nat.le_of_eq hlength), hlength, Nat.sub_self,
    List.eraseIdx_cons_zero]

/-! ### Reports -/

namespace Outcome

/-- The entry of a token among the statements of a report. -/
def rendered? : Token × Outcome → Option RenderedToken
  | (t, .rendered statements) => some ⟨t, statements⟩
  | _ => none

/-- The entry of a token among the failures of a report. -/
def failure? : Token × Outcome → Option Failure
  | (t, .failed e) => some ⟨t, e.message⟩
  | _ => none

def isApplied : Token × Outcome → Bool
  | (_, .applied) => true
  | _ => false

end Outcome

/-- The report on tokens of which it is known what became of them. -/
def reportOf (os : List (Token × Outcome)) : BatchReport where
  statements := os.filterMap Outcome.rendered?
  modelChanges := os.countP Outcome.isApplied
  failures := os.filterMap Outcome.failure?

@[simp] theorem reportOf_rendered (t : Token) (statements : List Statement) :
    reportOf [(t, .rendered statements)] = { statements := [⟨t, statements⟩] } := rfl

@[simp] theorem reportOf_applied (t : Token) :
    reportOf [(t, .applied)] = { modelChanges := 1 } := rfl

@[simp] theorem reportOf_failed (t : Token) (e : SchemaError) :
    reportOf [(t, .failed e)] = { failures := [⟨t, e.message⟩] } := rfl

/-- A report followed by another one. -/
def BatchReport.append (r r' : BatchReport) : BatchReport where
  statements := r.statements ++ r'.statements
  modelChanges := r.modelChanges + r'.modelChanges
  failures := r.failures ++ r'.failures

theorem BatchReport.append_assoc (r r' r'' : BatchReport) :
    (r.append r').append r'' = r.append (r'.append r'') := by
  simp [append, Nat.add_assoc]

theorem reportOf_append (os os' : List (Token × Outcome)) :
    reportOf (os ++ os') = (reportOf os).append (reportOf os') := by
  simp [reportOf, BatchReport.append]

/-- Every token has its place in the report. -/
theorem entries_reportOf (os : List (Token × Outcome)) :
    (reportOf os).statements.length + (reportOf os).modelChanges + (reportOf os).failures.length =
      os.length := by
  induction os with
  | nil => rfl
  | cons o os ih =>
    have hone : (reportOf [o]).statements.length + (reportOf [o]).modelChanges +
        (reportOf [o]).failures.length = 1 := by
      obtain ⟨t, outcome⟩ := o
      cases outcome <;> rfl
    rw [← List.singleton_append, reportOf_append]
    simp only [BatchReport.append, List.length_append, List.length_singleton]
    omega

/-! ### Runs -/

namespace Execution

theorem step_eq (d : Dialect) (x : Execution) (t : Token) :
    x.step d t =
      { report := x.report.append (reportOf [(t, t.outcome d x.model)])
        model := x.model.afterTokens [t] } := by
  obtain ⟨direction, c⟩ := t
  rw [Model.afterTokens_singleton]
  cases direction with
  | toDatabase =>
    cases hstatements : d.statements c with
    | ok statements =>
      simp [step, Token.outcome, Token.isToDatabase, hstatements, BatchReport.append]
    | error e =>
      simp [step, Token.outcome, Token.isToDatabase, hstatements, BatchReport.append,
        BatchReport.fail]
  | toModel =>
    cases happly : c.apply x.model with
    | ok edited =>
      simp [step, Token.outcome, Token.isToDatabase, happly, BatchReport.append, Model.tryChange]
    | error e =>
      simp [step, Token.outcome, Token.isToDatabase, happly, BatchReport.append, Model.tryChange,
        BatchReport.fail]

theorem run_eq (d : Dialect) (x : Execution) (ts : List Token) :
    x.run d ts =
      { report := x.report.append (reportOf (outcomes d x.model ts))
        model := x.model.afterTokens ts } := by
  induction ts generalizing x with
  | nil => simp [run, outcomes, reportOf, BatchReport.append, Model.afterTokens]
  | cons t ts ih =>
    rw [run, List.foldl_cons, ← run, ih, step_eq, outcomes_cons, BatchReport.append_assoc,
      ← reportOf_append, Model.afterTokens_cons x.model t ts]
    rfl

end Execution

theorem execute_eq (d : Dialect) (ts : List Token) (m : Model) :
    execute d ts m =
      { report := reportOf (outcomes d m (sortTokens ts))
        model := m.afterTokens (sortTokens ts) } := by
  rw [execute, Execution.run_eq]
  simp [BatchReport.append]

/-- The entry of a token among the statements, which does not depend on any model. -/
def Token.rendering? (d : Dialect) (t : Token) : Option RenderedToken :=
  if t.isToDatabase then (d.statements t.change).toOption.map (⟨t, ·⟩) else none

theorem rendered?_outcome (d : Dialect) (m : Model) (t : Token) :
    Outcome.rendered? (t, t.outcome d m) = t.rendering? d := by
  rw [Token.outcome, Token.rendering?]
  split
  · cases d.statements t.change <;> rfl
  · cases t.change.apply m <;> rfl

theorem filterMap_rendered?_outcomes (d : Dialect) (m : Model) (ts : List Token) :
    (outcomes d m ts).filterMap Outcome.rendered? = ts.filterMap (Token.rendering? d) := by
  induction ts generalizing m with
  | nil => rfl
  | cons t ts ih =>
    rw [outcomes_cons, List.filterMap_cons, rendered?_outcome, ih, List.filterMap_cons]

/-- **Every token of a batch is accounted for once**: a token for the database among the statements
    or the failures, a token for the model among the changes or the failures.  The model that is
    left is made by the tokens for the model alone, and without a token that is not applied the
    whole batch fares as it did, but for the entry of this token. -/
theorem execute_accounts (d : Dialect) (ts : List Token) (m : Model) :
    let s := sortTokens ts
    let os := outcomes d m s
    let x := execute d ts m
    x.report.statements = s.filterMap (Token.rendering? d) ∧
      x.report.failures = os.filterMap Outcome.failure? ∧
      x.report.modelChanges = os.countP Outcome.isApplied ∧
      x.report.statements.length + x.report.modelChanges + x.report.failures.length = ts.length ∧
      x.model = m.afterTokens s ∧
      ∀ before t after, s = before ++ t :: after → t.outcome d (m.afterTokens before) ≠ .applied →
        execute d (before ++ after) m =
          { report := reportOf (os.eraseIdx before.length), model := x.model } := by
  intro s os x
  have hx : x = { report := reportOf os, model := m.afterTokens s } := execute_eq d ts m
  rw [hx]
  refine ⟨filterMap_rendered?_outcomes d m s, rfl, rfl, ?_, rfl, ?_⟩
  · rw [entries_reportOf, length_outcomes]
    exact (perm_sortTokens ts).length_eq
  · intro before t after hs houtcome
    have hinOrder : InOrder (before ++ after) := by
      refine List.Pairwise.sublist ?_ (inOrder_sortTokens ts)
      change (before ++ after).Sublist s
      rw [hs]
      exact (List.sublist_cons_self t after).append_left before
    have hmodel : m.afterTokens (before ++ after) = m.afterTokens s := by
      rw [hs, Model.afterTokens_append, Model.afterTokens_append, Model.afterTokens_cons,
        afterTokens_of_not_applied houtcome]
    have houtcomes : outcomes d m (before ++ after) = os.eraseIdx before.length := by
      rw [outcomes_without houtcome, ← hs]
    rw [execute_eq, sortTokens_of_inOrder hinOrder, hmodel, houtcomes]

/-- A column that comes before its table, a change that SQLite has no statement for, and a key
    column that is to allow NULL. -/
def exhibitionBatch : List Token :=
  [⟨.toModel, .addColumn "EXHIBITION" (.ofType "TITLE" .text)⟩,
   ⟨.toModel, .setAllowNull "EXHIBITION" "ID"⟩,
   ⟨.toDatabase, .addTable exhibition⟩,
   ⟨.toDatabase, .setNotNull "EXHIBITION" "TITLE"⟩,
   ⟨.toModel, .addTable exhibition⟩]
where
  exhibition : Table :=
    { name := "EXHIBITION", columns := [⟨"ID", .integer, false, true⟩], primaryKey := ["ID"] }

theorem execute_accounts_exhibition :
    let s := sortTokens exhibitionBatch
    let x := execute .sqlite exhibitionBatch .empty
    x.report.statements.length = 1 ∧ x.report.modelChanges = 2 ∧
      x.report.failures.length = 2 ∧ (execute .sqlite s.tail .empty).model = x.model := by
  intro s x
  obtain ⟨hstatements, hfailures, hchanges, -, -, hwithout⟩ :=
    execute_accounts .sqlite exhibitionBatch .empty
  refine ⟨?_, ?_, ?_, ?_⟩
  · rw [hstatements]
    decide +kernel
  · rw [hchanges]
    decide +kernel
  · rw [hfailures]
    decide +kernel
  · have hs : s = [] ++ ⟨.toDatabase, .addTable exhibitionBatch.exhibition⟩ :: s.tail := by
      decide +kernel
    have hrun := hwithout _ _ _ hs (by decide +kernel)
    rw [List.nil_append] at hrun
    rw [hrun]

end SchemaDrift
