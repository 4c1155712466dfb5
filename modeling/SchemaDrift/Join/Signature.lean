/-
  SchemaDrift/Join/Signature.lean
  ===============================
  **Signatures: the keys under which joins are matched.**

  A signature lists one fragment `LOW.COLUMN>HIGH.COLUMN` for each pair of columns,
  in sorted order and without repetitions, all names folded to upper case.  Which
  table is the low one is decided by comparing the table names, and for a join of a
  table with itself by comparing the two columns.  So a signature depends neither on
  the orientation of the join nor on the order in which its pairs were declared.
-/
import SchemaDrift.Join.Basic
import SchemaDrift.Text.Sorted

namespace SchemaDrift

namespace Join

/-- The text of one pair in a signature, with folded names and the low table first. -/
def fragmentText (low lowColumn high highColumn : String) : String :=
  low ++ "." ++ lowColumn ++ ">" ++ high ++ "." ++ highColumn

def fragment (left right : String) (pair : ColumnPair) : String :=
  let leftColumn := foldName pair.left
  let rightColumn := foldName pair.right
  if left < right ∨ (left = right ∧ leftColumn ≤ rightColumn) then
    fragmentText left leftColumn right rightColumn
  else
    fragmentText right rightColumn left leftColumn

/-- The fragments of a join, in increasing order and each once. -/
def fragments (j : Join) : List String :=
  sortDistinct (j.condition.pairs.map
    (fragment (foldName j.entities.left) (foldName j.entities.right)))

def signature (j : Join) : String := String.intercalate ";" j.fragments

end Join

end SchemaDrift
