/-
  SchemaDrift/Change/Basic.lean
  =============================
  **Changes and the tokens that carry them.**

  A change is one atomic step from a schema to another, and every change can be read
  backwards: `Change.dual` undoes what the change does.  A token is a change with a
  direction: it is meant for the model or for the database, and the reverse of a token
  is the dual change in the other direction.  Main statement: `Token.reverse_reverse`.

  The priorities fix the order in which the changes of a plan run.  Joins are dropped
  before columns and columns before tables; tables are added before columns.  A column
  that joins the primary key excludes NULL before the key is set, and a column that
  leaves it allows NULL only afterwards.  Joins are added last.
-/
import SchemaDrift.Model.Basic

namespace SchemaDrift

/-- What a token changes: the model in memory or the live database. -/
inductive Direction where
  | toModel
  | toDatabase
deriving Repr, DecidableEq, Inhabited

namespace Direction

def opposite : Direction → Direction
  | toModel => toDatabase
  | toDatabase => toModel

def target : Direction → String
  | toModel => "model"
  | toDatabase => "database"

@[simp] theorem opposite_opposite (d : Direction) : d.opposite.opposite = d := by cases d <;> rfl

end Direction

/-! ### Kinds of change -/

inductive ChangeKind where
  | addTable
  | dropTable
  | addColumn
  | dropColumn
  | addJoin
  | dropJoin
  | setPrimaryKey
  | setColumnType
  | setNotNull
  | setAllowNull
deriving Repr, DecidableEq, Inhabited

namespace ChangeKind

/-- The rank of a kind in the order of execution; the lowest comes first. -/
def priority : ChangeKind → Nat
  | dropJoin => 10
  | dropColumn => 20
  | dropTable => 30
  | addTable => 40
  | addColumn => 50
  | setColumnType => 60
  | setNotNull => 70
  | setPrimaryKey => 80
  | setAllowNull => 85
  | addJoin => 90

def dual : ChangeKind → ChangeKind
  | addTable => dropTable
  | dropTable => addTable
  | addColumn => dropColumn
  | dropColumn => addColumn
  | addJoin => dropJoin
  | dropJoin => addJoin
  | setNotNull => setAllowNull
  | setAllowNull => setNotNull
  | setPrimaryKey => setPrimaryKey
  | setColumnType => setColumnType

def name : ChangeKind → String
  | addTable => "AddTable"
  | dropTable => "DropTable"
  | addColumn => "AddColumn"
  | dropColumn => "DropColumn"
  | addJoin => "AddJoin"
  | dropJoin => "DropJoin"
  | setPrimaryKey => "SetPrimaryKey"
  | setColumnType => "SetColumnType"
  | setNotNull => "SetNotNull"
  | setAllowNull => "SetAllowNull"

@[simp] theorem dual_dual (k : ChangeKind) : k.dual.dual = k := by cases k <;> rfl

theorem priority_inj {a b : ChangeKind} (h : a.priority = b.priority) : a = b := by
  cases a <;> cases b <;> first | rfl | cases h

end ChangeKind

/-! ### Changes -/

/-- One step from a schema to another.  Where something is replaced, `old` and `new` say by
    what. -/
inductive Change where
  | addTable (table : Table)
  /-- The whole table is kept, so that the change can be undone. -/
  | dropTable (table : Table)
  | addColumn (table : String) (column : Column)
  | dropColumn (table : String) (column : Column)
  /-- Adds a join; the table of the referencing side holds the foreign key. -/
  | addJoin (join : Join) (referencing : Side)
  | dropJoin (join : Join) (referencing : Side)
  | setPrimaryKey (table : String) (old new : List String)
  | setColumnType (table column : String) (old new : SqlType)
  | setNotNull (table column : String)
  | setAllowNull (table column : String)
deriving Repr, DecidableEq, Inhabited

namespace Change

def kind : Change → ChangeKind
  | addTable _ => .addTable
  | dropTable _ => .dropTable
  | addColumn _ _ => .addColumn
  | dropColumn _ _ => .dropColumn
  | addJoin _ _ => .addJoin
  | dropJoin _ _ => .dropJoin
  | setPrimaryKey _ _ _ => .setPrimaryKey
  | setColumnType _ _ _ _ => .setColumnType
  | setNotNull _ _ => .setNotNull
  | setAllowNull _ _ => .setAllowNull

/-- The change that undoes a change. -/
def dual : Change → Change
  | addTable table => dropTable table
  | dropTable table => addTable table
  | addColumn table column => dropColumn table column
  | dropColumn table column => addColumn table column
  | addJoin join referencing => dropJoin join referencing
  | dropJoin join referencing => addJoin join referencing
  | setPrimaryKey table old new => setPrimaryKey table new old
  | setColumnType table column old new => setColumnType table column new old
  | setNotNull table column => setAllowNull table column
  | setAllowNull table column => setNotNull table column

/-- The table that a change is about; for a join, the one that holds the foreign key. -/
def table : Change → String
  | addTable table | dropTable table => table.name
  | addJoin join referencing | dropJoin join referencing => join.entity referencing
  | addColumn table _ | dropColumn table _ => table
  | setPrimaryKey table _ _ => table
  | setColumnType table _ _ _ => table
  | setNotNull table _ | setAllowNull table _ => table

def description : Change → String
  | addTable table => "Add table '" ++ table.name ++ "'"
  | dropTable table => "Drop table '" ++ table.name ++ "'"
  | addColumn table column => s!"Add column '{column.name}' to table '{table}'"
  | dropColumn table column => s!"Drop column '{column.name}' from table '{table}'"
  | addJoin join _ => "Add join " ++ join.display
  | dropJoin join _ => "Drop join " ++ join.display
  | setPrimaryKey table old new =>
    let oldKey := String.intercalate ", " old
    let newKey := String.intercalate ", " new
    s!"Set primary key of table '{table}' from ({oldKey}) to ({newKey})"
  | setColumnType table column old new =>
    s!"Change type of column '{table}.{column}' from {old.display} to {new.display}"
  | setNotNull table column => s!"Set column '{table}.{column}' NOT NULL"
  | setAllowNull table column => s!"Allow NULL in column '{table}.{column}'"

@[simp] theorem dual_dual (c : Change) : c.dual.dual = c := by cases c <;> rfl

@[simp] theorem kind_dual (c : Change) : c.dual.kind = c.kind.dual := by cases c <;> rfl

end Change

/-! ### Tokens -/

/-- A change with the target that it is meant for. -/
structure Token where
  direction : Direction
  change : Change
deriving Repr, DecidableEq, Inhabited

namespace Token

def kind (t : Token) : ChangeKind := t.change.kind

def priority (t : Token) : Nat := t.kind.priority

def isToDatabase (t : Token) : Bool := t.direction == .toDatabase

/-- The token that undoes a token, at the other target. -/
def reverse (t : Token) : Token := ⟨t.direction.opposite, t.change.dual⟩

def description (t : Token) : String :=
  t.change.description ++ " (" ++ t.direction.target ++ ")"

@[simp] theorem reverse_reverse (t : Token) : t.reverse.reverse = t := by
  simp [reverse]

@[simp] theorem kind_reverse (t : Token) : t.reverse.kind = t.kind.dual := Change.kind_dual _

end Token

/-! ### The order of execution -/

/-- Puts a token before the first one that does not come strictly earlier. -/
def insertToken (t : Token) : List Token → List Token
  | [] => [t]
  | u :: us => if t.priority ≤ u.priority then t :: u :: us else u :: insertToken t us

/-- Tokens in the order of execution.  Tokens of one rank keep the order they have. -/
def sortTokens (tokens : List Token) : List Token := tokens.foldr insertToken []

end SchemaDrift
