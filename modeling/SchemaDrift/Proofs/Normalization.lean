/-
  SchemaDrift/Proofs/Normalization.lean
  =====================================
  **Canonical orientation picks one way to write a relationship, where there is one to pick.**

  The order of the two tables, and for a table with itself the order of the declared names,
  turn over with the join.  So of a join and its reverse just one is written the right way
  round (`needsSwap_reversed`), unless neither order tells the two sides apart: then both
  are left as they are written (`needsSwap_of_isTied`), and a relationship keeps two
  canonical forms.

  Naming the endpoints of a model cannot upset this, as a name that is made up counts as
  missing, and the name that it replaces is missing (`declaredName?_nameEndpoint`).

  Main statement: `normalize_representative`.
-/
import Mathlib.Data.String.Basic
import SchemaDrift.Proofs.Frame

namespace SchemaDrift

namespace Join

/-! ### The order of the two sides -/

/-- Neither the tables nor the declared names tell the two sides of a join apart. -/
def IsTied (j : Join) : Prop :=
  j.entities.left = j.entities.right ∧ j.declaredName? .left = j.declaredName? .right

instance (j : Join) : Decidable j.IsTied :=
  inferInstanceAs (Decidable (_ ∧ _))

theorem nameBefore_self (a : Option String) : nameBefore a a = false := by
  cases a with
  | none => rfl
  | some a => exact decide_eq_false (lt_irrefl a)

theorem nameBefore_flip {a b : Option String} (h : a ≠ b) : nameBefore b a = !nameBefore a b := by
  match a, b with
  | none, none => exact absurd rfl h
  | none, some b => rfl
  | some a, none => rfl
  | some a, some b =>
    have hne : a ≠ b := fun heq => h (congrArg some heq)
    rcases lt_or_gt_of_ne hne with hlt | hgt
    · simp [nameBefore, hlt, lt_asymm hlt]
    · simp [nameBefore, hgt, lt_asymm hgt]

theorem needsSwap_of_isTied {j : Join} (h : j.IsTied) : j.needsSwap = false := by
  rw [needsSwap, h.1, if_neg (lt_irrefl _), if_neg (lt_irrefl _), h.2, nameBefore_self]

/-- Of two sides that can be told apart, one comes first from wherever they are read. -/
theorem needsSwap_reversed {j : Join} (h : ¬ j.IsTied) : j.reversed.needsSwap = !j.needsSwap := by
  rw [needsSwap, needsSwap]
  change (if j.entities.right < j.entities.left then false
    else if j.entities.left < j.entities.right then true
    else nameBefore (j.declaredName? .left) (j.declaredName? .right)) = _
  rcases lt_trichotomy j.entities.left j.entities.right with hlt | heq | hgt
  · rw [if_neg (lt_asymm hlt), if_pos hlt, if_pos hlt]
    rfl
  · rw [heq, if_neg (lt_irrefl _), if_neg (lt_irrefl _), if_neg (lt_irrefl _),
      if_neg (lt_irrefl _)]
    exact nameBefore_flip fun hnames => h ⟨heq, hnames.symm⟩
  · rw [if_pos hgt, if_neg (lt_asymm hgt), if_pos hgt]
    rfl

theorem IsTied.reversed {j : Join} (h : j.IsTied) : j.reversed.IsTied := ⟨h.1.symm, h.2.symm⟩

/-! ### The canonical form -/

theorem orient_eq (j : Join) : j.orient = (!j.isNormalized, j.normalize) := by
  rw [orient, isNormalized, normalize, Bool.not_not]
  cases j.needsSwap <;> rfl

theorem normalize_eq_or (j : Join) : j.normalize = j ∨ j.normalize = j.reversed := by
  rw [normalize]
  split
  · exact .inr rfl
  · exact .inl rfl

theorem normalize_of_isNormalized {j : Join} (h : j.isNormalized = true) : j.normalize = j := by
  have hswap : j.needsSwap = false := by simpa [isNormalized] using h
  rw [normalize, hswap]
  rfl

theorem isNormalized_normalize (j : Join) : j.normalize.isNormalized = true := by
  rw [normalize]
  split
  next hswap =>
    -- only a join whose sides can be told apart is ever turned round
    have huntied : ¬ j.IsTied := fun htied => by simp [needsSwap_of_isTied htied] at hswap
    rw [isNormalized, needsSwap_reversed huntied, hswap]
    rfl
  next hswap => simpa [isNormalized] using hswap

theorem normalize_normalize (j : Join) : j.normalize.normalize = j.normalize :=
  normalize_of_isNormalized j.isNormalized_normalize

/-- A join whose two sides can be told apart has one canonical orientation, from whichever side it
    is written. -/
theorem normalize_reversed {j : Join} (h : ¬ j.IsTied) : j.reversed.normalize = j.normalize := by
  rw [normalize, normalize, needsSwap_reversed h]
  cases j.needsSwap <;> simp

theorem normalize_of_isTied {j : Join} (h : j.IsTied) : j.normalize = j :=
  normalize_of_isNormalized (by rw [isNormalized, needsSwap_of_isTied h]; rfl)

theorem normalize_reversed_eq_iff (j : Join) :
    j.reversed.normalize = j.normalize ↔ ¬ j.IsTied ∨ j.reversed = j := by
  constructor
  · intro heq
    by_cases htied : j.IsTied
    · rw [normalize_of_isTied htied, normalize_of_isTied htied.reversed] at heq
      exact .inr heq
    · exact .inl htied
  · rintro (huntied | hsame)
    · exact normalize_reversed huntied
    · rw [hsame]

end Join

/-! ### Naming the endpoints -/

theorem declaredName?_nameEndpoint (taken : TakenNames) (j : Join) (s t : Side) :
    (j.nameEndpoint taken s).2.declaredName? t = j.declaredName? t := by
  rw [Join.nameEndpoint]
  split
  next => rfl
  next hnone =>
    -- a name that is made up counts as missing, and the name that it replaces is missing
    have hmissing : j.declaredName? s = none := by
      rw [Join.declaredName?, hnone, ite_self]
    cases s <;> cases t <;> first | exact hmissing.symm | rfl

theorem needsSwap_nameEndpoint (taken : TakenNames) (j : Join) (s : Side) :
    (j.nameEndpoint taken s).2.needsSwap = j.needsSwap := by
  have hentities : (j.nameEndpoint taken s).2.entities = j.entities := by
    rw [Join.nameEndpoint]
    split <;> rfl
  rw [Join.needsSwap, Join.needsSwap, hentities, declaredName?_nameEndpoint,
    declaredName?_nameEndpoint]

/-- Naming the endpoints of joins turns none of them round. -/
theorem map_isNormalized_nameJoins (taken : TakenNames) (js : List Join) :
    (nameJoins taken js).map Join.isNormalized = js.map Join.isNormalized := by
  induction js generalizing taken with
  | nil => rfl
  | cons j js ih =>
    have hhead : (j.nameEndpoints taken).2.needsSwap = j.needsSwap :=
      (needsSwap_nameEndpoint _ _ .right).trans (needsSwap_nameEndpoint _ _ .left)
    rw [nameJoins, List.map_cons, List.map_cons, ih, Join.isNormalized, hhead]
    rfl

/-- **Of a relationship the canonical orientation picks one way to write it**, the same from
    either side, unless the two sides have one spelling of their tables and one declared name;
    and a model that is compiled has its joins written the way they were, whatever names they
    are given. -/
theorem normalize_representative :
    (∀ j : Join,
      j.normalize.isNormalized = true ∧
      j.normalize.normalize = j.normalize ∧
      j.orient = (!j.isNormalized, j.normalize) ∧
      (j.normalize = j ∨ j.normalize = j.reversed) ∧
      (j.reversed.normalize = j.normalize ↔
        j.entities.left ≠ j.entities.right ∨
          j.declaredName? .left ≠ j.declaredName? .right ∨ j.reversed = j)) ∧
    ∀ m : Model,
      List.Forall₂ Join.CompletedBy m.joins m.compile.joins ∧
      m.compile.joins.map Join.isNormalized = m.joins.map Join.isNormalized := by
  refine ⟨fun j => ?_, fun m => ?_⟩
  · have hiff := j.normalize_reversed_eq_iff
    rw [Join.IsTied, not_and_or, or_assoc] at hiff
    exact ⟨j.isNormalized_normalize, j.normalize_normalize, j.orient_eq, j.normalize_eq_or, hiff⟩
  · exact ⟨completedBy_nameJoins _ m.joins, map_isNormalized_nameJoins _ m.joins⟩

/-- Two employees of whom one stands in for the other, without saying which. -/
example :
    let stands : Join :=
      { entities := ⟨"STAFF", "STAFF"⟩
        names := ⟨none, none⟩
        cardinality := .oneToOne
        dependentKey := .none
        condition := .single ⟨"ID", "DEPUTY_ID"⟩ }
    stands.normalize = stands ∧ stands.reversed.normalize = stands.reversed ∧
      stands.reversed ≠ stands := by
  decide

end SchemaDrift
