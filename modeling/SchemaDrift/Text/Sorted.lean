/-
  SchemaDrift/Text/Sorted.lean
  ============================
  **Sorted lists of distinct texts.**

  Texts are ordered by their code points.  `sortDistinct` gives the members of a list
  in increasing order, each once; it is how the keys of a dictionary and the fragments
  of a signature are listed.  Main statements: `mem_sortDistinct`, nothing is lost or
  added, and `pairwise_sortDistinct`, the order is strict.
-/

namespace SchemaDrift

/-- Puts a text into its place in an increasing list that does not hold it yet. -/
def insertText (x : String) : List String → List String
  | [] => [x]
  | y :: ys => if x < y then x :: y :: ys else if x = y then y :: ys else y :: insertText x ys

/-- The members of a list in increasing order, each once. -/
def sortDistinct (xs : List String) : List String := xs.foldr insertText []

theorem mem_insertText {a x : String} {ys : List String} :
    a ∈ insertText x ys ↔ a = x ∨ a ∈ ys := by
  induction ys with
  | nil => simp [insertText]
  | cons y ys ih =>
    rw [insertText]
    split
    next => simp
    next =>
      split
      next h => subst h; simp
      next => rw [List.mem_cons, ih, List.mem_cons]; grind

theorem mem_sortDistinct {a : String} {xs : List String} : a ∈ sortDistinct xs ↔ a ∈ xs := by
  induction xs with
  | nil => simp [sortDistinct]
  | cons x xs ih =>
    rw [sortDistinct, List.foldr_cons, mem_insertText, List.mem_cons]
    exact or_congr Iff.rfl ih

theorem pairwise_insertText (x : String) {ys : List String} (h : ys.Pairwise (· < ·)) :
    (insertText x ys).Pairwise (· < ·) := by
  induction ys with
  | nil => simp [insertText]
  | cons y ys ih =>
    have hy := (List.pairwise_cons.1 h).1
    rw [insertText]
    split
    next hxy =>
      refine List.pairwise_cons.2 ⟨fun a ha => ?_, h⟩
      rcases List.mem_cons.1 ha with rfl | ha
      · exact hxy
      · exact String.lt_trans hxy (hy a ha)
    next hxy =>
      split
      next => exact h
      next hne =>
        refine List.pairwise_cons.2 ⟨fun a ha => ?_, ih h.of_cons⟩
        rcases mem_insertText.1 ha with rfl | ha
        · exact Decidable.byContradiction fun hya => hne (String.le_antisymm hya hxy)
        · exact hy a ha

theorem pairwise_sortDistinct (xs : List String) : (sortDistinct xs).Pairwise (· < ·) := by
  induction xs with
  | nil => exact List.Pairwise.nil
  | cons x xs ih => exact pairwise_insertText x ih

end SchemaDrift
