/-
  SchemaDrift/Proofs/Framing.lean
  ===============================
  **Texts that tell where they end.**

  Texts that are written one behind the other can be taken apart again if each of them can
  be told from what follows it.  `Delimited write p` says that a way of writing has this
  property in front of every text that does not begin with a character of the class `p`: a
  quoted name may not be followed by a quotation mark, a numeral not by a digit.

  Blocks of characters of a class are delimited by the class (`delimited_of_block`), and a list
  with a separator is delimited if its items are (`Delimited.intercalate`).
-/
import Mathlib.Data.Bool.Basic
import Mathlib.Data.List.Basic
import SchemaDrift.Proofs.Scanning
import SchemaDrift.Text.Decimal

namespace SchemaDrift

variable {α : Type}

/-- What is written of the items of a domain determines the item and where its text ends, if no
    character of a class follows. -/
def Delimited (domain : α → Prop) (write : α → List Char) (p : Char → Bool) : Prop :=
  ∀ ⦃a b : α⦄, domain a → domain b → ∀ ⦃rest rest' : List Char⦄,
    StartsOutside p rest → StartsOutside p rest' →
      write a ++ rest = write b ++ rest' → a = b ∧ rest = rest'

variable {domain : α → Prop} {write : α → List Char} {p q : Char → Bool}

theorem StartsOutside.mono (hpq : ∀ c, p c = true → q c = true) {rest : List Char}
    (h : StartsOutside q rest) : StartsOutside p rest := fun c hc =>
  Bool.eq_false_iff.2 fun hp => Bool.eq_false_iff.1 (h c hc) (hpq c hp)

theorem not_startsOutside_cons {c : Char} {cs : List Char} (h : p c = true) :
    ¬ StartsOutside p (c :: cs) := fun hout =>
  Bool.eq_false_iff.1 (startsOutside_cons.1 hout) h

/-- Nothing begins outside a class that continues with a text that does not. -/
theorem StartsOutside.ne_append {cs rest rest' : List Char} (hrest : StartsOutside p rest)
    (hcs : ¬ StartsOutside p cs) : rest ≠ cs ++ rest' := by
  rintro rfl
  exact hcs fun c hc => hrest c (List.mem_head?_append_of_mem_head? hc)

theorem Delimited.injOn (h : Delimited domain write p) {a b : α} (ha : domain a) (hb : domain b)
    (heq : write a = write b) : a = b :=
  (h ha hb (startsOutside_nil p) (startsOutside_nil p) (by rw [heq])).1

/-! ### Blocks -/

theorem block_inj {block block' rest rest' : List Char} (hblock : ∀ c ∈ block, p c = true)
    (hblock' : ∀ c ∈ block', p c = true) (hrest : StartsOutside p rest)
    (hrest' : StartsOutside p rest') (h : block ++ rest = block' ++ rest') :
    block = block' ∧ rest = rest' := by
  refine ⟨?_, ?_⟩
  · rw [← takeWhile_block hblock hrest, h, takeWhile_block hblock' hrest']
  · rw [← dropWhile_block hblock hrest, h, dropWhile_block hblock' hrest']

theorem delimited_of_block (hblock : ∀ a, domain a → ∀ c ∈ write a, p c = true)
    (hinj : ∀ a b, domain a → domain b → write a = write b → a = b) :
    Delimited domain write p := by
  intro a b ha hb rest rest' hrest hrest' h
  obtain ⟨hwrite, heq⟩ := block_inj (hblock a ha) (hblock b hb) hrest hrest' h
  exact ⟨hinj a b ha hb hwrite, heq⟩

theorem not_startsOutside_writeDecimal (h : ∀ c, c.isDigit = true → p c = true) (n : Nat) :
    ¬ StartsOutside p (writeDecimal n) := by
  cases hds : writeDecimal n with
  | nil => exact absurd hds (writeDecimal_ne_nil n)
  | cons d ds =>
    refine not_startsOutside_cons (h d ?_)
    exact List.all_eq_true.1 (writeDecimal_all_isDigit n) d (hds ▸ List.mem_cons_self)

theorem delimited_writeDecimal : Delimited (fun _ => True) writeDecimal Char.isDigit :=
  delimited_of_block (fun n _ => List.all_eq_true.1 (writeDecimal_all_isDigit n))
    fun n m _ _ h => by rw [← digitsValue_writeDecimal n, h, digitsValue_writeDecimal]

/-! ### Lists -/

theorem intercalate_cons (sep x : List Char) (xs : List (List Char)) :
    sep.intercalate (x :: xs) = x ++ xs.flatMap (sep ++ ·) := by
  induction xs generalizing x with
  | nil => simp
  | cons y ys ih => rw [List.intercalate_cons_cons, ih, List.flatMap_cons]; simp

section Lists

variable {c : Char} {s : List Char}

/-- Items behind their separators, whose first character is not one that an item goes on with. -/
theorem Delimited.flatMap (h : Delimited domain write p) (hc : p c = false)
    (hpq : ∀ x, p x = true → q x = true) (hcq : q c = true) :
    Delimited (fun as : List α => ∀ a ∈ as, domain a)
      (fun as => as.flatMap (c :: s ++ write ·)) q := by
  have hahead : ∀ (as : List α) {rest : List Char}, StartsOutside q rest →
      StartsOutside p (as.flatMap (c :: s ++ write ·) ++ rest) := by
    intro as rest hrest
    cases as with
    | nil => exact hrest.mono hpq
    | cons a as => exact startsOutside_cons.2 hc
  intro as bs has hbs rest rest' hrest hrest' heq
  induction as generalizing bs with
  | nil =>
    cases bs with
    | nil => exact ⟨rfl, heq⟩
    | cons b bs => exact absurd heq (hrest.ne_append (not_startsOutside_cons hcq))
  | cons a as ih =>
    cases bs with
    | nil => exact absurd heq.symm (hrest'.ne_append (not_startsOutside_cons hcq))
    | cons b bs =>
      obtain ⟨ha, has⟩ := List.forall_mem_cons.1 has
      obtain ⟨hb, hbs⟩ := List.forall_mem_cons.1 hbs
      simp only [List.flatMap_cons, List.append_assoc, List.append_cancel_left_eq] at heq
      obtain ⟨hab, htail⟩ := h ha hb (hahead as hrest) (hahead bs hrest') heq
      obtain ⟨htails, hrests⟩ := ih has hbs htail
      exact ⟨by rw [hab, htails], hrests⟩

/-- A list with separators ends where neither an item nor a separator goes on, and an empty one
    where no item begins. -/
theorem Delimited.intercalate (h : Delimited domain write p) (hc : p c = false)
    (hpq : ∀ x, p x = true → q x = true) (hcq : q c = true)
    (hstart : ∀ a, domain a → ¬ StartsOutside q (write a)) :
    Delimited (fun as : List α => ∀ a ∈ as, domain a)
      (fun as => (c :: s).intercalate (as.map write)) q := by
  have hfirst : ∀ {a : α} (as : List α) {rest rest' : List Char}, domain a →
      StartsOutside q rest → rest ≠ (c :: s).intercalate ((a :: as).map write) ++ rest' := by
    intro a as rest rest' ha hrest
    rw [List.map_cons, intercalate_cons, List.append_assoc]
    exact hrest.ne_append (hstart a ha)
  intro as bs has hbs rest rest' hrest hrest' heq
  cases as with
  | nil =>
    cases bs with
    | nil => exact ⟨rfl, heq⟩
    | cons b bs => exact absurd heq (hfirst bs (hbs b List.mem_cons_self) hrest)
  | cons a as =>
    cases bs with
    | nil => exact absurd heq.symm (hfirst as (has a List.mem_cons_self) hrest')
    | cons b bs =>
      -- put a separator in front of both lists
      have hsep : (a :: as).flatMap (c :: s ++ write ·) ++ rest =
          (b :: bs).flatMap (c :: s ++ write ·) ++ rest' := by
        simp only [List.map_cons, intercalate_cons, List.flatMap_map, List.append_assoc] at heq
        simp only [List.flatMap_cons, List.append_assoc, heq]
      exact h.flatMap hc hpq hcq has hbs hrest hrest' hsep

end Lists

end SchemaDrift
