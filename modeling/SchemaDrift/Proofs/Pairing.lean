/-
  SchemaDrift/Proofs/Pairing.lean
  ===============================
  **A difference finds a place for every entry, and pairs by position.**

  The entries of a list may share a key.  They are then paired in the order in which the
  lists have them, the first original with the first imported entry and so on, until one of
  the lists has no more of this key.  What the other list has more is left over, in its
  order, on the side of this list alone.  So no entry is lost and none is used twice,
  however often its key is repeated, and the keys that are repeated are reported.

  Nothing is asked of the key: it may be any function of an entry, and entries may carry
  keys of their own.  Main statement: `difference_accounts`.
-/
import SchemaDrift.Proofs.Matching

namespace SchemaDrift

variable {α : Type}

/-- The pairs of a key, in the order in which they were formed. -/
def Difference.pairsOf (keyOf : α → String) (key : String) (d : Difference α) : List (α × α) :=
  d.both.filter fun pair => keyOf pair.1 == key

theorem length_pairsOf (keyOf : α → String) (original imported : List α) (key : String) :
    ((difference keyOf original imported).pairsOf keyOf key).length =
      min (entriesOf keyOf key original).length (entriesOf keyOf key imported).length := by
  rw [Difference.pairsOf, pairsOf_both, List.length_zip]

/-- The ambiguous keys are listed in increasing order. -/
theorem pairwise_ambiguous (keyOf : α → String) (original imported : List α) :
    (difference keyOf original imported).ambiguous.Pairwise (· < ·) :=
  pairwise_sortDistinct _

/-- What a difference of two lists accounts for: all entries of both, the pairs and what is left
    over of each key, and the keys that are repeated. -/
structure Difference.Accounts (keyOf : α → String) (original imported : List α)
    (d : Difference α) : Prop where
  originals : (d.both.map Prod.fst ++ d.onlyOriginal).Perm original
  imports : (d.both.map Prod.snd ++ d.onlyImported).Perm imported
  same_key : ∀ pair ∈ d.both, keyOf pair.1 = keyOf pair.2
  pairs_length : ∀ key, (d.pairsOf keyOf key).length =
    min (entriesOf keyOf key original).length (entriesOf keyOf key imported).length
  pairs : ∀ key, d.pairsOf keyOf key =
    (entriesOf keyOf key original).zip (entriesOf keyOf key imported)
  left_original : ∀ key, entriesOf keyOf key d.onlyOriginal =
    (entriesOf keyOf key original).drop (entriesOf keyOf key imported).length
  left_imported : ∀ key, entriesOf keyOf key d.onlyImported =
    (entriesOf keyOf key imported).drop (entriesOf keyOf key original).length
  ambiguous_increasing : d.ambiguous.Pairwise (· < ·)
  mem_ambiguous : ∀ key, key ∈ d.ambiguous ↔
    1 < (entriesOf keyOf key original).length ∨ 1 < (entriesOf keyOf key imported).length

/-- **Every entry of the two lists is in one pair or left over once**, the entries of a key are
    paired by position, and the ambiguous keys are those that a list has more than once. -/
theorem difference_accounts (keyOf : α → String) (original imported : List α) :
    (difference keyOf original imported).Accounts keyOf original imported where
  originals := perm_originals keyOf original imported
  imports := perm_imports keyOf original imported
  same_key _ hpair := (mem_both hpair).2.2
  pairs_length := length_pairsOf keyOf original imported
  pairs key := pairsOf_both key
  left_original key := entriesOf_onlyOriginal key
  left_imported key := entriesOf_onlyImported key
  ambiguous_increasing := pairwise_ambiguous keyOf original imported
  mem_ambiguous _ := mem_ambiguous_difference

example : difference foldName ["a", "A", "A", "c"] ["b", "a", "B"] =
    { onlyOriginal := ["A", "A", "c"], onlyImported := ["b", "B"], both := [("a", "a")],
      ambiguous := ["A", "B"] } := by
  decide +kernel

end SchemaDrift
