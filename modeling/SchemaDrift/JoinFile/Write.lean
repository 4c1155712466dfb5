/-
  SchemaDrift/JoinFile/Write.lean
  ===============================
  **Writing joins to a file.**

  A join file is a document with one `join` element for each join.  Its children are
  the two endpoints and the pairs of columns.  A name that was made up is not written:
  whoever reads the file makes up names of their own.
-/
import SchemaDrift.Join.Basic
import SchemaDrift.Markup.Attribute

namespace SchemaDrift

namespace JoinFile

open Markup

def endpointName : Side → String
  | .left => "left"
  | .right => "right"

/-- An endpoint of a join: its table, and its name as far as it was declared. -/
def endpointText (j : Join) (s : Side) : String :=
  closedText (endpointName s)
    (("entity", j.entity s) ::
      match j.declaredName? s with
      | some name => [("name", name)]
      | none => [])

def pairText (pair : ColumnPair) : String :=
  closedText "column-pair" [("left", pair.left), ("right", pair.right)]

def joinLines (j : Join) : List String :=
  ("  " ++ openingText "join"
      [("toMany", j.cardinality.word), ("toDependentPK", j.dependentKey.word)]) ::
    (Side.both.map (endpointText j) ++ j.condition.pairs.map pairText).map ("    " ++ ·) ++
    ["  " ++ closingText "join"]

def write (joins : List Join) : String :=
  String.intercalate "\n"
    ("<?xml version=\"1.0\" encoding=\"UTF-8\"?>" :: openingText "joins" [] ::
      joins.flatMap joinLines ++ [closingText "joins"])

end JoinFile

end SchemaDrift
