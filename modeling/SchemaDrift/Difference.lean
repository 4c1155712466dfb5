/-
  SchemaDrift/Difference.lean
  ===========================
  **The difference of two lists of named entries.**

  Entries are matched by a key and never by what they are.  The entries of one key
  are paired by position, the first original with the first imported one and so on,
  and what is left over on the longer side is one-sided.  A key that several entries
  of one list have is reported as ambiguous.

  The keys of the originals are gone through in increasing order, each with all the
  entries that have it; the keys that only imported entries have come after them,
  again in increasing order.
-/
import SchemaDrift.Text.Name
import SchemaDrift.Text.Sorted

namespace SchemaDrift

variable {α : Type}

/-- How two lists of entries differ. -/
structure Difference (α : Type) where
  onlyOriginal : List α := []
  onlyImported : List α := []
  /-- The original and the imported entry of each match. -/
  both : List (α × α) := []
  /-- The keys that several entries of one list have. -/
  ambiguous : List String := []
deriving Repr, DecidableEq

namespace Difference

def append (a b : Difference α) : Difference α :=
  { onlyOriginal := a.onlyOriginal ++ b.onlyOriginal
    onlyImported := a.onlyImported ++ b.onlyImported
    both := a.both ++ b.both
    ambiguous := a.ambiguous ++ b.ambiguous }

/-- The difference of the entries of one key. -/
def ofKey (key : String) (originals imports : List α) : Difference α :=
  { onlyOriginal := originals.drop imports.length
    onlyImported := imports.drop originals.length
    both := originals.zip imports
    ambiguous := if originals.length > 1 || imports.length > 1 then [key] else [] }

def isEmpty (d : Difference α) : Bool := d.onlyOriginal.isEmpty && d.onlyImported.isEmpty

/-- How many entries there are of each sort. -/
def summary (d : Difference α) : String :=
  let originals := d.onlyOriginal.length
  let imports := d.onlyImported.length
  let matched := d.both.length
  s!"{originals} only in original, {imports} only in imported, {matched} in both"

end Difference

/-- The entries of a key. -/
def entriesOf (keyOf : α → String) (key : String) (entries : List α) : List α :=
  entries.filter fun entry => keyOf entry == key

/-- The keys of a list of entries, in increasing order. -/
def keysOf (keyOf : α → String) (entries : List α) : List String :=
  sortDistinct (entries.map keyOf)

/-- The difference of the entries of some keys, key by key. -/
def differenceAt (keyOf : α → String) (original imported : List α) (keys : List String) :
    Difference α :=
  keys.foldr
    (fun key rest =>
      (Difference.ofKey key (entriesOf keyOf key original) (entriesOf keyOf key imported)).append
        rest)
    {}

/-- The difference of two lists of entries under a key. -/
def difference (keyOf : α → String) (original imported : List α) : Difference α :=
  let originalKeys := keysOf keyOf original
  let importedKeys := (keysOf keyOf imported).filter fun key => !originalKeys.contains key
  let found := differenceAt keyOf original imported (originalKeys ++ importedKeys)
  { found with ambiguous := sortDistinct found.ambiguous }

end SchemaDrift
