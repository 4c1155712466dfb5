/-
  SchemaDrift/Database/Deployment.lean
  ====================================
  **Running the statements of a batch against a database.**

  The statements of one token belong together: when one of them fails, the token has
  failed and the rest of its statements is skipped, as they rely on it.  Later tokens
  still run, on what the earlier ones left behind.  A rehearsal runs nothing; it
  counts the statements and shows their text.

  What a statement does is a parameter, a function that gives the new state or refuses,
  so the same rules hold for any database.
-/
import SchemaDrift.Database.Introspection
import SchemaDrift.Database.Statement
import SchemaDrift.Execution
import SchemaDrift.Plan

namespace SchemaDrift

/-- What came of running a batch of statements. -/
structure Deployment (σ : Type) where
  state : σ
  executed : Nat := 0
  /-- The tokens with a statement that failed, in order. -/
  failed : List Token := []
deriving Repr, DecidableEq

namespace Deployment

variable {σ : Type}

def isSuccess (x : Deployment σ) : Bool := x.failed.isEmpty

/-- Runs the statements of one token up to the first that fails. -/
def runToken (exec : Statement → σ → Option σ) (t : Token) (x : Deployment σ) :
    List Statement → Deployment σ
  | [] => x
  | s :: rest =>
    match exec s x.state with
    | some state => runToken exec t { x with state, executed := x.executed + 1 } rest
    | none => { x with failed := x.failed ++ [t] }

/-- Runs the statements of a report, token by token. -/
def run (exec : Statement → σ → Option σ) (r : BatchReport) (state : σ) : Deployment σ :=
  r.statements.foldl (fun x t => runToken exec t.token x t.statements) { state }

/-- Counts the statements of a report and runs none. -/
def rehearse (r : BatchReport) (state : σ) : Deployment σ :=
  { state, executed := r.sql.length }

/-- Runs the statements of a report, or only rehearses them. -/
def deploy (exec : Statement → σ → Option σ) (rehearsal : Bool) (r : BatchReport)
    (state : σ) : Deployment σ :=
  if rehearsal then rehearse r state else run exec r state

end Deployment

/-- What a rehearsal shows: every statement with a semicolon, on lines of its own. -/
def BatchReport.script (r : BatchReport) : String := String.join (r.sql.map (· ++ ";\n"))

namespace Engine

variable {σ : Type}

/-- The plan that brings a database in line with a model. -/
def planFor (e : Engine σ) (db : σ) (options : PlanOptions) (m : Model) :
    Except SchemaError Plan := do
  plan options m (← e.introspect db options.inclusion)

/-- Gives a database the texts of the statements of a report, or only rehearses them. -/
def deploy (e : Engine σ) (rehearsal : Bool) (r : BatchReport) (db : σ) : Deployment σ :=
  Deployment.deploy (fun s => e.execute s.sql) rehearsal r db

end Engine

namespace Database

def introspect (db : Database) (f : Inclusion) : Except SchemaError Model :=
  engine.introspect db f

def planFor (db : Database) (options : PlanOptions) (m : Model) : Except SchemaError Plan :=
  engine.planFor db options m

def deploy (db : Database) (rehearsal : Bool) (r : BatchReport) : Deployment Database :=
  engine.deploy rehearsal r db

end Database

end SchemaDrift
