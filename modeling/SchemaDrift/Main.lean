/-
  SchemaDrift/Main.lean
  =====================
  **The command line.**

  This layer reads and writes files and prints; every decision is made elsewhere.
  Models, filters and join files are what the library reads and writes.  A database is
  given by the file that describes it, and `apply` writes the description of the changed
  database back.  Statements go to the standard output, remarks to the standard error.
-/
import SchemaDrift.Command
import SchemaDrift.Database.Deployment
import SchemaDrift.Filter
import SchemaDrift.JoinFile.Read
import SchemaDrift.JoinFile.Write
import SchemaDrift.Json.Database
import SchemaDrift.Json.Plan

namespace SchemaDrift

namespace Command

/-- The value of a computation, or its error as an error of the program. -/
def orFail {α : Type} (what : String) (x : Except SchemaError α) : IO α :=
  match x with
  | .ok value => pure value
  | .error e => throw (IO.userError (what ++ e.message))

def remark (text : String) : IO Unit := do (← IO.getStderr).putStrLn text

def loadModel (c : Command) : IO Model := do
  let text ← IO.FS.readFile c.model
  orFail ("Failed to load model " ++ c.model ++ ": ") (Model.ofText text)

def loadDatabase (c : Command) : IO Database := do
  let text ← IO.FS.readFile c.database
  orFail ("Failed to load database " ++ c.database ++ ": ") (Database.ofText text)

/-- What a plan for a command takes into account. -/
def planOptions (c : Command) : IO PlanOptions := do
  let inclusion ← match c.filter with
    | none => pure Inclusion.all
    | some path =>
      let text ← IO.FS.readFile path
      orFail "" ((FilterSpec.ofText text).bind (·.build))
  return { skipJoins := c.skipJoins, skipKeys := c.skipKeys, inclusion }

/-- The plan of a command; what was ambiguous is remarked. -/
def planOf (c : Command) (m : Model) (db : Database) : IO Plan := do
  let p ← orFail "" (db.planFor (← c.planOptions) m)
  for key in p.ambiguous do
    remark ("Ambiguous entry, matched by position: " ++ key)
  if c.verbose then
    for t in p.tokens do
      remark t.description
  return p

def reportFailures (failures : List Failure) : IO Unit := do
  for failure in failures do
    IO.println (" [!] " ++ failure.token.description ++ ": " ++ failure.message)

def runPlan (c : Command) (json : Bool) : IO Unit := do
  let m ← c.loadModel
  let p ← c.planOf m (← c.loadDatabase)
  if json then
    IO.println p.toJson.pretty
  else if p.isEmpty then
    remark "Database is in sync with the model."
  else
    let report := (execute c.dialect p.tokens m).report
    IO.print report.script
    reportFailures report.failures

def runApply (c : Command) (dryRun : Bool) : IO Unit := do
  if c.dialect.name ≠ Dialect.sqlite.name then
    throw (IO.userError
      "apply only runs against SQLite databases; use `plan` to render other dialects")
  let m ← c.loadModel
  let db ← c.loadDatabase
  let p ← c.planOf m db
  if p.isEmpty then
    remark "Database is in sync with the model."
  else
    let report := (execute .sqlite p.tokens m).report
    let deployed := db.deploy dryRun report
    if dryRun then
      remark "Dry run mode - SQL will be printed but not executed."
      IO.print report.script
    else
      IO.FS.writeFile c.database deployed.state.toText
    let failures := report.failures ++ deployed.failed.map fun t => ⟨t, "statement failed"⟩
    reportFailures failures
    remark ("Apply finished: " ++ decimal deployed.executed ++ " statements executed")
    if !failures.isEmpty then
      throw (IO.userError (decimal failures.length ++ " token(s) failed"))

def runPull (c : Command) (output : Option String) : IO Unit := do
  let m ← c.loadModel
  let p ← c.planOf m (← c.loadDatabase)
  let pulled := execute c.dialect p.reversed.tokens m
  reportFailures pulled.report.failures
  IO.FS.writeFile (output.getD c.model) pulled.model.toText
  remark ("Model updated: " ++ decimal pulled.report.modelChanges ++ " changes")

def runExport (c : Command) (output : Option String) : IO Unit := do
  let m ← c.loadModel
  let text := JoinFile.write m.joins
  match output with
  | some path => IO.FS.writeFile path text
  | none => IO.println text

def runImport (c : Command) (input : String) : IO Unit := do
  let m ← c.loadModel
  let joins ← orFail "" (JoinFile.read (← IO.FS.readFile input))
  let loaded := m.loadJoins joins
  IO.FS.writeFile c.model loaded.model.toText
  remark ("Joins imported: " ++ decimal loaded.result)

def run (c : Command) : IO Unit :=
  match c.action with
  | .plan json => c.runPlan json
  | .apply dryRun => c.runApply dryRun
  | .pull output => c.runPull output
  | .exportJoins output => c.runExport output
  | .importJoins input => c.runImport input

end Command

end SchemaDrift

def main (arguments : List String) : IO UInt32 := do
  match SchemaDrift.Command.ofArguments arguments with
  | .error e =>
    IO.eprintln ("error: " ++ e.message)
    return 2
  | .ok c =>
    try
      c.run
      return 0
    catch e =>
      IO.eprintln ("Error: " ++ toString e)
      return 1
