/-
  SchemaDrift/Text/Name.lean
  ==========================
  **Names of tables, columns and relationships, compared without regard to ASCII case.**

  A database folds the letters `a` … `z` of an identifier and no others: `Artist`
  and `ARTIST` are one table, `é` and `É` are two.  Every comparison of names in
  this library goes through `foldName`, and every dictionary key is a folded name,
  so two names are the same exactly when their keys are equal.
-/

namespace SchemaDrift

/-- The key of a name: ASCII letters in upper case, every other character as it is. -/
def foldName (name : String) : String := String.ofList (name.toList.map Char.toUpper)

/-- The name with its ASCII letters in lower case, as it is used inside generated names. -/
def lowerName (name : String) : String := String.ofList (name.toList.map Char.toLower)

/-- Two names denote the same thing when they differ at most in the case of ASCII letters. -/
def sameName (a b : String) : Bool := foldName a == foldName b

/-- Whether `name` is one of `names`, ignoring case. -/
def namedIn (names : List String) (name : String) : Bool := names.any (sameName name)

/-- Two lists hold the same names at the same positions, ignoring case. -/
def sameNames : List String → List String → Bool
  | [], [] => true
  | a :: as, b :: bs => sameName a b && sameNames as bs
  | _, _ => false

theorem sameName_iff {a b : String} : sameName a b = true ↔ foldName a = foldName b := by
  simp [sameName]

theorem sameName_comm (a b : String) : sameName a b = sameName b a := by
  rw [Bool.eq_iff_iff, sameName_iff, sameName_iff]; exact eq_comm

end SchemaDrift
