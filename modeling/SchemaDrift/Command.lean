/-
  SchemaDrift/Command.lean
  ========================
  **Commands, and how they are given on a command line.**

  A command names an action and the files that it is about.  Options may stand before or
  behind the action; an option that is given twice counts as it was given last.
-/
import SchemaDrift.Dialect.Basic

namespace SchemaDrift

inductive Action where
  /-- Show the changes that make the database match the model. -/
  | plan (json : Bool)
  /-- Make the database match the model, or show how. -/
  | apply (dryRun : Bool)
  /-- Make the model match the database. -/
  | pull (output : Option String)
  /-- Write the joins of the model as a join file. -/
  | exportJoins (output : Option String)
  /-- Load the joins of a join file into the model. -/
  | importJoins (input : String)
deriving Repr, DecidableEq

inductive UsageError where
  | unknownOption (option : String)
  | missingValue (option : String)
  | missingOption (option : String)
  | unknownDialect (name : String)
  | missingAction
  | unknownAction (name : String)
  | surplusWord (word : String)
deriving Repr, DecidableEq

def UsageError.message : UsageError → String
  | unknownOption option => s!"unknown option '{option}'"
  | missingValue option => s!"option '{option}' needs a value"
  | missingOption option => s!"option '{option}' is required"
  | unknownDialect name => s!"unknown dialect '{name}', expected sqlite or postgres"
  | missingAction => "expected one of: plan, apply, pull, export-joins, import-joins"
  | unknownAction name => s!"unknown command '{name}'"
  | surplusWord word => s!"unexpected argument '{word}'"

structure Command where
  action : Action
  model : String
  /-- The file that describes the database. -/
  database : String
  dialect : Dialect
  filter : Option String
  skipJoins : Bool
  skipKeys : Bool
  verbose : Bool

namespace Command

/-! ### Arguments -/

inductive Argument where
  | flag (name : String)
  | setting (name value : String)
  | word (text : String)
deriving Repr, DecidableEq

def flagOf? : String → Option String
  | "--skip-joins" => some "skip-joins"
  | "--skip-pk" => some "skip-pk"
  | "--verbose" | "-v" => some "verbose"
  | "--json" => some "json"
  | "--dry-run" => some "dry-run"
  | _ => none

def settingOf? : String → Option String
  | "--database" | "-d" => some "database"
  | "--dialect" => some "dialect"
  | "--filter" | "-f" => some "filter"
  | "--model" | "-m" => some "model"
  | "--output" | "-o" => some "output"
  | "--input" | "-i" => some "input"
  | _ => none

/-- The parts of a command line: an option that wants a value takes the text behind it. -/
def readArguments : List String → Except UsageError (List Argument)
  | [] => .ok []
  | text :: rest =>
    match flagOf? text, settingOf? text with
    | some flag, _ => (readArguments rest).map (.flag flag :: ·)
    | none, some name =>
      match rest with
      | [] => .error (.missingValue text)
      | value :: rest => (readArguments rest).map (.setting name value :: ·)
    | none, none =>
      if text.startsWith "-" then .error (.unknownOption text)
      else (readArguments rest).map (.word text :: ·)

def hasFlag (arguments : List Argument) (name : String) : Bool :=
  arguments.contains (.flag name)

/-- The value that a setting was given last. -/
def setting? (arguments : List Argument) (name : String) : Option String :=
  arguments.reverse.findSome? fun
    | .setting key value => if key = name then some value else none
    | _ => none

/-- The value of a setting that has to be given. -/
def setting (arguments : List Argument) (name : String) : Except UsageError String :=
  match setting? arguments name with
  | some value => .ok value
  | none => .error (.missingOption ("--" ++ name))

def words (arguments : List Argument) : List String :=
  arguments.filterMap fun
    | .word text => some text
    | _ => none

/-! ### Commands -/

/-- The dialect of a name on the command line. -/
def dialectOf : Option String → Except UsageError Dialect
  | none | some "sqlite" => .ok .sqlite
  | some "postgres" => .ok .postgres
  | some name => .error (.unknownDialect name)

def actionOf (arguments : List Argument) : Except UsageError Action :=
  match words arguments with
  | [] => .error .missingAction
  | _ :: surplus :: _ => .error (.surplusWord surplus)
  | ["plan"] => .ok (.plan (hasFlag arguments "json"))
  | ["apply"] => .ok (.apply (hasFlag arguments "dry-run"))
  | ["pull"] => .ok (.pull (setting? arguments "output"))
  | ["export-joins"] => .ok (.exportJoins (setting? arguments "output"))
  | ["import-joins"] => (setting arguments "input").map .importJoins
  | [name] => .error (.unknownAction name)

def ofArguments (texts : List String) : Except UsageError Command := do
  let arguments ← readArguments texts
  return {
    action := ← actionOf arguments
    model := ← setting arguments "model"
    database := (setting? arguments "database").getD "database.json"
    dialect := ← dialectOf (setting? arguments "dialect")
    filter := setting? arguments "filter"
    skipJoins := hasFlag arguments "skip-joins"
    skipKeys := hasFlag arguments "skip-pk"
    verbose := hasFlag arguments "verbose" }

end Command

end SchemaDrift
