/-
  SchemaDrift/Plan.lean
  =====================
  **Planning: the changes that bring one model in line with another.**

  `plan` compares an original model, which is the one that is kept up to date by hand,
  with an imported one, which is usually read from a live database.  Its tokens change
  the database until it agrees with the original model.  `Plan.reversed` is the same
  plan for the other direction: it changes the original model until it agrees with the
  database.

  Tables, columns and joins are compared by `difference`.  What only the original has
  is added, what only the import has is dropped, and where both have something its
  type, nullability and primary key are compared.  Both models must be complete: a
  join without one of its tables fails the whole plan.
-/
import SchemaDrift.Change.Basic
import SchemaDrift.Difference
import SchemaDrift.Inclusion
import SchemaDrift.Resolution

namespace SchemaDrift

/-! ### Making tokens -/

/-- Adding or dropping NULL. -/
def Change.setNullability (table column : String) (nullable : Bool) : Change :=
  if nullable then .setAllowNull table column else .setNotNull table column

/-- Adding a join of a model, which decides the side that holds the foreign key. -/
def Change.addJoinOf (j : Join) (m : Model) : Except SchemaError Change :=
  (j.referencingSide m).map (.addJoin j ·)

/-- Dropping a join of an imported model.  The import decides the side that holds the foreign
    key; the names are spelled as the original has them. -/
def Change.dropJoinOf (j : Join) (imported original : Model) : Except SchemaError Change := do
  let referencing ← j.referencingSide imported
  let respelled ← j.respell original
  return .dropJoin respelled referencing

/-! ### Plans -/

/-- Tokens in the order of execution, and the keys that were not unique. -/
structure Plan where
  tokens : List Token := []
  ambiguous : List String := []
deriving Repr, DecidableEq

namespace Plan

def isEmpty (p : Plan) : Bool := p.tokens.isEmpty

/-- The plan that undoes each change at the other target. -/
def reversed (p : Plan) : Plan := { p with tokens := sortTokens (p.tokens.map Token.reverse) }

end Plan

structure PlanOptions where
  /-- Do not add joins. -/
  skipJoins : Bool := false
  /-- Do not change primary keys. -/
  skipKeys : Bool := false
  inclusion : Inclusion := .all

def columnChanges (table : String) (wanted actual : Column) : List Change :=
  (if wanted.type = actual.type then []
    else [.setColumnType table wanted.name actual.type wanted.type]) ++
  (if wanted.nullable = actual.nullable then []
    else [.setNullability table wanted.name wanted.nullable])

def keyChanges (options : PlanOptions) (original imported : Table) : List Change :=
  if options.skipKeys || sameNames original.primaryKey imported.primaryKey then []
  else [.setPrimaryKey original.name imported.primaryKey original.primaryKey]

def columnDifference (f : Inclusion) (original imported : Table) : Difference Column :=
  difference Column.matchKey (original.columnsIn f) (imported.columnsIn f)

def tableChanges (options : PlanOptions) (original imported : Table) : List Change :=
  let columns := columnDifference options.inclusion original imported
  columns.onlyOriginal.map (.addColumn original.name ·) ++
    columns.onlyImported.map (.dropColumn original.name ·) ++
    columns.both.flatMap (fun (wanted, actual) => columnChanges original.name wanted actual) ++
    keyChanges options original imported

def ambiguousColumns (f : Inclusion) (original imported : Table) : List String :=
  (columnDifference f original imported).ambiguous.map fun key =>
    "column " ++ original.name ++ "." ++ key

def tableDifference (f : Inclusion) (original imported : Model) : Difference Table :=
  difference Table.matchKey (original.tablesIn f) (imported.tablesIn f)

def joinDifference (f : Inclusion) (original imported : Model) : Difference Join :=
  difference Join.signature (original.joinsIn f) (imported.joinsIn f)

/-- The changes of the joins: those that only the import has are dropped, and those that only
    the original has are added. -/
def joinChanges (options : PlanOptions) (original imported : Model) :
    Except SchemaError (List Change) := do
  let joins := joinDifference options.inclusion original imported
  let drops ← joins.onlyImported.mapM (Change.dropJoinOf · imported original)
  if options.skipJoins then return drops
  let additions ← joins.onlyOriginal.mapM (Change.addJoinOf · original)
  return drops ++ additions

/-- The plan that brings an imported model in line with an original one. -/
def plan (options : PlanOptions) (original imported : Model) : Except SchemaError Plan := do
  original.validateJoins
  imported.validateJoins
  let f := options.inclusion
  let tables := tableDifference f original imported
  let ofTables :=
    tables.onlyOriginal.map Change.addTable ++ tables.onlyImported.map Change.dropTable ++
      tables.both.flatMap fun (o, i) => tableChanges options o i
  let ofJoins ← joinChanges options original imported
  return {
    tokens := sortTokens ((ofTables ++ ofJoins).map (Token.mk .toDatabase))
    ambiguous :=
      tables.ambiguous.map ("table " ++ ·) ++
        tables.both.flatMap (fun (o, i) => ambiguousColumns f o i) ++
        (joinDifference f original imported).ambiguous.map ("join " ++ ·) }

end SchemaDrift
