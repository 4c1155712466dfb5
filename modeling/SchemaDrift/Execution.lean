/-
  SchemaDrift/Execution.lean
  ==========================
  **Executing a batch of tokens.**

  The tokens of a batch run in the order of their ranks.  A token for the model changes
  the model, which is then compiled; a token for the database becomes statements.  A
  token that fails is recorded with the reason and leaves no trace, and the rest of
  the batch still runs.
-/
import SchemaDrift.Change.Apply
import SchemaDrift.Dialect.Basic

namespace SchemaDrift

structure Failure where
  token : Token
  message : String
deriving Repr, DecidableEq

/-- The statements of a token for the database. -/
structure RenderedToken where
  token : Token
  statements : List Statement
deriving Repr, DecidableEq

/-- What came of a batch. -/
structure BatchReport where
  /-- The statements of each token for the database, in the order of execution. -/
  statements : List RenderedToken := []
  /-- The number of tokens that changed the model. -/
  modelChanges : Nat := 0
  /-- The tokens that failed, in the order of execution. -/
  failures : List Failure := []
deriving Repr, DecidableEq

namespace BatchReport

def sql (r : BatchReport) : List String :=
  r.statements.flatMap fun t => t.statements.map Statement.sql

def isSuccess (r : BatchReport) : Bool := r.failures.isEmpty

def fail (r : BatchReport) (t : Token) (e : SchemaError) : BatchReport :=
  { r with failures := r.failures ++ [⟨t, e.message⟩] }

end BatchReport

/-- A model with the report on what was done so far. -/
structure Execution where
  report : BatchReport := {}
  model : Model
deriving Repr, DecidableEq

namespace Execution

def step (d : Dialect) (x : Execution) (t : Token) : Execution :=
  match t.direction with
  | .toDatabase =>
    match d.statements t.change with
    | .ok statements =>
      { x with report := { x.report with statements := x.report.statements ++ [⟨t, statements⟩] } }
    | .error e => { x with report := x.report.fail t e }
  | .toModel =>
    match t.change.apply x.model with
    | .ok edited =>
      { report := { x.report with modelChanges := x.report.modelChanges + 1 }
        model := edited.model.compile }
    | .error e => { x with report := x.report.fail t e }

def run (d : Dialect) (x : Execution) (tokens : List Token) : Execution :=
  tokens.foldl (step d) x

end Execution

/-- Executes a batch of tokens on a model, in the order of their ranks. -/
def execute (d : Dialect) (tokens : List Token) (m : Model) : Execution :=
  Execution.run d { model := m } (sortTokens tokens)

end SchemaDrift
