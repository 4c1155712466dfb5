/-
  SchemaDrift/Inclusion.lean
  ==========================
  **Which tables and columns take part.**

  An inclusion filter answers two questions: is a table compared at all, given its
  catalog, its schema and its name, and which columns of a table are.  The comparison
  of models and the reading of databases ask it and know nothing of how it decides;
  `FilterSpec` builds filters from patterns.  Where there is no filter everything
  takes part, which is the filter `Inclusion.all`.
-/
import SchemaDrift.Model.Basic

namespace SchemaDrift

/-- The scope of a comparison. -/
structure Inclusion where
  /-- Whether a table with this catalog, schema and name takes part. -/
  table : Option String → Option String → String → Bool
  /-- Whether a column takes part, given the name of its table and its own. -/
  column : String → String → Bool

namespace Inclusion

/-- Everything takes part. -/
def all : Inclusion := ⟨fun _ _ _ => true, fun _ _ => true⟩

def includesTable (f : Inclusion) (t : Table) : Bool := f.table t.catalog t.schema t.name

/-- Whether one side of a join takes part: its table, and all its columns.  A table that the
    model lacks is judged by its name alone. -/
def includesSide (f : Inclusion) (m : Model) (j : Join) (s : Side) : Bool :=
  let table :=
    match m.findTable? (j.entity s) with
    | some t => f.includesTable t
    | none => f.table none none (j.entity s)
  table && (j.columns s).all (f.column (j.entity s))

def includesJoin (f : Inclusion) (m : Model) (j : Join) : Bool :=
  Side.both.all (f.includesSide m j)

end Inclusion

/-! ### The entries that are compared -/

def Model.tablesIn (m : Model) (f : Inclusion) : List Table := m.tables.filter f.includesTable

def Model.joinsIn (m : Model) (f : Inclusion) : List Join := m.joins.filter (f.includesJoin m)

def Table.columnsIn (t : Table) (f : Inclusion) : List Column :=
  t.columns.filter fun c => f.column t.name c.name

/-- The key under which tables are matched. -/
def Table.matchKey (t : Table) : String := foldName t.name

/-- The key under which columns are matched. -/
def Column.matchKey (c : Column) : String := foldName c.name

end SchemaDrift
