/-
  SchemaDrift/Proofs/Deployment.lean
  ==================================
  **How far each token of a deployment gets.**

  A statement that is refused ends the token that it belongs to, and only this token: the
  next one begins on the state that is left.  So a deployment is a chain of attempts, one
  for each token of the report.  An attempt says which statements succeeded, one after the
  other, and which were left, the first of these because it was refused.  This is said
  without running anything (`IsAttempt`); still there is such an attempt on every state
  (`exists_isAttempt`), and it tells what becomes of the token there (`runToken_eq`).

  Attempts that follow each other add up: the states link up, the statements that
  succeeded are counted, and the tokens that failed are listed (`Deployment.Accounts`).
  The run of a report is the only outcome that a chain of attempts accounts for.  What a
  statement does to a state is left open throughout.  Main statement: `deploy_accounts`.
-/
import Mathlib.Data.List.Forall2
import SchemaDrift.Database.Deployment

namespace SchemaDrift

variable {σ : Type}

/-! ### Attempts -/

/-- How far the statements of a token got. -/
structure Attempt (σ : Type) where
  token : Token
  before : σ
  /-- The statements that succeeded, in order. -/
  done : List Statement
  /-- The statement that was refused, if there is one, and those that were skipped behind it. -/
  left : List Statement
  after : σ

namespace Attempt

/-- Whether a statement was refused. -/
def isFailure (a : Attempt σ) : Bool := !a.left.isEmpty

end Attempt

/-- An attempt at the statements of a token: each succeeds on the state that the one before left,
    until all are done or the next one is refused. -/
structure IsAttempt (exec : Statement → σ → Option σ) (t : RenderedToken) (a : Attempt σ) :
    Prop where
  token : a.token = t.token
  statements : a.done ++ a.left = t.statements
  succeeded : a.done.foldlM (fun state s => exec s state) a.before = some a.after
  refused : ∀ s ∈ a.left.head?, exec s a.after = none

/-- Statements can be tried on every state. -/
theorem exists_isAttempt (exec : Statement → σ → Option σ) (t : RenderedToken) (state : σ) :
    ∃ a, IsAttempt exec t a ∧ a.before = state := by
  obtain ⟨token, statements⟩ := t
  induction statements generalizing state with
  | nil => exact ⟨⟨token, state, [], [], state⟩, ⟨rfl, rfl, rfl, by simp⟩, rfl⟩
  | cons s rest ih =>
    cases hs : exec s state with
    | none => exact ⟨⟨token, state, [], s :: rest, state⟩, ⟨rfl, rfl, rfl, by simpa⟩, rfl⟩
    | some next =>
      obtain ⟨a, ha, rfl⟩ := ih next
      refine ⟨⟨token, state, s :: a.done, a.left, a.after⟩, ⟨rfl, ?_, ?_, ha.refused⟩, rfl⟩
      · exact congrArg (s :: ·) ha.statements
      · rw [List.foldlM_cons, hs]
        exact ha.succeeded

/-- A list of attempts for the tokens of a report, each on the state that the one before left. -/
theorem exists_attempts (exec : Statement → σ → Option σ) (ts : List RenderedToken) (state : σ) :
    ∃ as last, List.Forall₂ (IsAttempt exec) ts as ∧
      as.map Attempt.before ++ [last] = state :: as.map Attempt.after := by
  induction ts generalizing state with
  | nil => exact ⟨[], state, .nil, rfl⟩
  | cons t ts ih =>
    obtain ⟨a, ha, rfl⟩ := exists_isAttempt exec t state
    obtain ⟨as, last, has, hstates⟩ := ih a.after
    refine ⟨a :: as, last, .cons ha has, ?_⟩
    exact congrArg (a.before :: ·) hstates

namespace Deployment

variable {exec : Statement → σ → Option σ} {x : Deployment σ}

/-! ### The run of a token -/

/-- Statements that succeed are counted, and the others go on from there. -/
theorem runToken_append (t : Token) {done : List Statement} {after : σ}
    (h : done.foldlM (fun state s => exec s state) x.state = some after)
    (left : List Statement) :
    runToken exec t x (done ++ left) =
      runToken exec t { x with state := after, executed := x.executed + done.length } left := by
  induction done generalizing x with
  | nil =>
    obtain rfl : x.state = after := Option.some.inj h
    rfl
  | cons s done ih =>
    rw [List.foldlM_cons, Option.bind_eq_bind, Option.bind_eq_some_iff] at h
    obtain ⟨next, hs, hdone⟩ := h
    rw [List.cons_append, runToken, hs]
    refine (ih (x := { x with state := next, executed := x.executed + 1 }) hdone).trans ?_
    simp only [List.length_cons, Nat.add_assoc, Nat.add_comm 1]

/-- A statement that is refused ends the token, and nothing ends a token without statements. -/
theorem runToken_of_refused (t : Token) {left : List Statement}
    (h : ∀ s ∈ left.head?, exec s x.state = none) :
    runToken exec t x left =
      { x with failed := x.failed ++ if left.isEmpty then [] else [t] } := by
  cases left with
  | nil => simp [runToken]
  | cons s left =>
    rw [runToken, h s rfl]
    rfl

/-- What an attempt adds to a deployment. -/
def record (x : Deployment σ) (a : Attempt σ) : Deployment σ where
  state := a.after
  executed := x.executed + a.done.length
  failed := x.failed ++ if a.isFailure then [a.token] else []

/-- The run of a token is known from an attempt on the same state. -/
theorem runToken_eq {t : RenderedToken} {a : Attempt σ} (h : IsAttempt exec t a)
    (hx : x.state = a.before) : runToken exec t.token x t.statements = x.record a := by
  have hdone := hx ▸ h.succeeded
  rw [← h.statements, runToken_append t.token hdone, runToken_of_refused t.token h.refused, record,
    h.token, Attempt.isFailure]
  cases a.left.isEmpty <;> rfl

/-! ### The run of a report -/

/-- A deployment as its attempts account for it. -/
structure Accounts (exec : Statement → σ → Option σ) (r : BatchReport) (state : σ)
    (as : List (Attempt σ)) (x : Deployment σ) : Prop where
  /-- There is one attempt for each token, in order. -/
  attempts : List.Forall₂ (IsAttempt exec) r.statements as
  /-- Each attempt begins on the state that the one before left. -/
  states : as.map Attempt.before ++ [x.state] = state :: as.map Attempt.after
  executed : x.executed = (as.flatMap Attempt.done).length
  failed : x.failed = (as.filter Attempt.isFailure).map Attempt.token

/-- Running the tokens one by one adds up their attempts. -/
theorem foldl_runToken {ts : List RenderedToken} {as : List (Attempt σ)} {last : σ}
    (h : List.Forall₂ (IsAttempt exec) ts as)
    (hstates : as.map Attempt.before ++ [last] = x.state :: as.map Attempt.after) :
    ts.foldl (fun x t => runToken exec t.token x t.statements) x =
      { state := last
        executed := x.executed + (as.flatMap Attempt.done).length
        failed := x.failed ++ (as.filter Attempt.isFailure).map Attempt.token } := by
  induction h generalizing x with
  | nil =>
    obtain rfl : last = x.state := (List.cons.inj hstates).1
    simp
  | @cons t a ts as ha has ih =>
    obtain ⟨hbefore, hrest⟩ := List.cons.inj hstates
    rw [List.foldl_cons, runToken_eq ha hbefore.symm, ih (x := x.record a) hrest, record]
    simp only [List.flatMap_cons, List.length_append, Nat.add_assoc, List.filter_cons,
      List.append_assoc]
    cases a.isFailure <;> rfl

theorem Accounts.run_eq {r : BatchReport} {state : σ} {as : List (Attempt σ)}
    (h : Accounts exec r state as x) : run exec r state = x := by
  rw [run, foldl_runToken h.attempts h.states, Nat.zero_add, List.nil_append, ← h.executed,
    ← h.failed]

theorem exists_accounts (exec : Statement → σ → Option σ) (r : BatchReport) (state : σ) :
    ∃ as, Accounts exec r state as (run exec r state) := by
  obtain ⟨as, last, has, hstates⟩ := exists_attempts exec r.statements state
  have hrun := foldl_runToken (x := { state }) has hstates
  rw [← run, Nat.zero_add, List.nil_append] at hrun
  rw [hrun]
  exact ⟨as, has, hstates, rfl, rfl⟩

end Deployment

theorem BatchReport.length_sql (r : BatchReport) :
    r.sql.length = (r.statements.flatMap RenderedToken.statements).length := by
  rw [sql, ← List.map_flatMap, List.length_map]

/-- **A failure ends its token and never the batch.**  Whatever statements do to a state, the outcome
    of a deployment is the one that its attempts account for: every token of the report has one,
    on the state that the earlier tokens left, and runs its statements up to the first that is
    refused; the statements that succeed are counted, and the tokens with a refused statement are
    listed in order.  A rehearsal counts all statements, and neither changes the state nor
    fails. -/
theorem Deployment.deploy_accounts (exec : Statement → σ → Option σ) (r : BatchReport) (state : σ) :
    (∀ x, deploy exec false r state = x ↔ ∃ as, Accounts exec r state as x) ∧
      deploy exec true r state =
        { state
          executed := (r.statements.flatMap RenderedToken.statements).length
          failed := [] } := by
  refine ⟨fun x => ⟨?_, ?_⟩, ?_⟩
  · rintro rfl
    exact exists_accounts exec r state
  · rintro ⟨as, has⟩
    exact has.run_eq
  · rw [← r.length_sql]
    rfl

/-- A key that cannot be dropped is not replaced, but the token behind it runs. -/
example :
    let r := (execute .postgres
      [⟨.toDatabase, .setPrimaryKey "LEDGER" ["YEAR", "NO"] ["YEAR"]⟩,
       ⟨.toDatabase, .setAllowNull "LEDGER" "NO"⟩] .empty).report
    let x := Deployment.deploy
      (fun | .dropConstraint _ _, _ => none | s, log => some (log ++ [s])) false r []
    r.sql.length = 3 ∧ x.state = [.dropNotNull "LEDGER" "NO"] ∧ x.executed = 1 ∧
      x.failed = [⟨.toDatabase, .setPrimaryKey "LEDGER" ["YEAR", "NO"] ["YEAR"]⟩] := by
  decide +kernel

end SchemaDrift
