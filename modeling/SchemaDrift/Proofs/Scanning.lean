/-
  SchemaDrift/Proofs/Scanning.lean
  ================================
  **Where a scanner stops.**

  The readers of this library take the characters of a class from the front of a text, or
  pass over them.  Given a block of such characters and a text that does not begin with one,
  they take the block and leave the text: `takeWhile_block`, `dropWhile_block`.
-/
import Mathlib.Data.List.TakeWhile

namespace SchemaDrift

/-- A text that does not begin with a character of a class. -/
def StartsOutside (p : Char → Bool) (rest : List Char) : Prop := ∀ c ∈ rest.head?, p c = false

theorem startsOutside_nil (p : Char → Bool) : StartsOutside p [] := by
  rintro c ⟨⟩

theorem startsOutside_cons {p : Char → Bool} {c : Char} {cs : List Char} :
    StartsOutside p (c :: cs) ↔ p c = false := by
  simp [StartsOutside]

section Block

variable {p : Char → Bool} {block rest : List Char}

theorem takeWhile_block (hblock : ∀ c ∈ block, p c = true) (hrest : StartsOutside p rest) :
    (block ++ rest).takeWhile p = block := by
  rw [List.takeWhile_append_of_pos hblock]
  cases rest with
  | nil => simp
  | cons c cs => simp [startsOutside_cons.1 hrest]

theorem dropWhile_block (hblock : ∀ c ∈ block, p c = true) (hrest : StartsOutside p rest) :
    (block ++ rest).dropWhile p = rest := by
  rw [List.dropWhile_append_of_pos hblock]
  cases rest with
  | nil => rfl
  | cons c cs => simp [startsOutside_cons.1 hrest]

theorem dropWhile_of_startsOutside (hrest : StartsOutside p rest) : rest.dropWhile p = rest :=
  @dropWhile_block p [] rest (List.forall_mem_nil _) hrest

end Block

end SchemaDrift
