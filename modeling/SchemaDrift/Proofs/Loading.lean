/-
  SchemaDrift/Proofs/Loading.lean
  ===============================
  **Loading a batch of joins takes those that resolve, and has no effect otherwise.**

  Of the joins of a batch a model takes those whose tables and columns it has, each in its
  own spelling, and puts them behind the joins that it has already, in the order of the
  batch (`forall₂_resolvable`).  It is compiled once at the end, which makes up names for
  the endpoints that have none and leaves everything else in its place.  The joins that do
  not resolve might as well not have been there (`resolvable_taken`).

  What resolves in a model has its tables there, so a model of which no join lacks a table
  stays such a model.  Main statement: `loadJoins_exact`.
-/
import SchemaDrift.Proofs.Frame
import SchemaDrift.Proofs.Resolution

namespace SchemaDrift

/-! ### The joins that a model takes -/

/-- Whether a model takes a join: it has both tables, in them all columns of the join, and the join
    has at least one pair of columns. -/
def Join.LoadsInto (j : Join) (m : Model) : Prop := j.ResolvesIn m ∧ j.condition.pairs ≠ []

instance (j : Join) (m : Model) : Decidable (j.LoadsInto m) := inferInstanceAs (Decidable (_ ∧ _))

section Batch

variable {m : Model}

theorem exists_resolve_iff {j : Join} : (∃ k, j.resolve m = .ok k) ↔ j.LoadsInto m := by
  constructor
  · rintro ⟨k, hk⟩
    obtain ⟨hresolves, hrespelled⟩ := resolve_eq_ok_iff.1 hk
    refine ⟨hresolves, fun hnone => ?_⟩
    have hcondition := hrespelled.condition
    rw [Join.respelledPairs, hnone] at hcondition
    cases hcondition
  · rintro ⟨hresolves, hpairs⟩
    obtain ⟨k, hk, -⟩ := exists_resolve hresolves hpairs
    exact ⟨k, hk⟩

/-- The joins of a batch that the model takes. -/
def Model.taken (m : Model) (js : List Join) : List Join := js.filter fun j => j.LoadsInto m

/-- Each join that the model takes is there as what it resolves to, in the order of the batch. -/
theorem forall₂_resolvable (js : List Join) :
    List.Forall₂ (fun j k => j.resolve m = .ok k) (m.taken js) (m.resolvable js) := by
  induction js with
  | nil => exact .nil
  | cons j js ih =>
    rw [Model.taken, Model.resolvable]
    cases hj : j.resolve m with
    | error e =>
      have hnot : ¬ j.LoadsInto m := by
        rw [← exists_resolve_iff, hj]
        rintro ⟨k, ⟨⟩⟩
      rw [List.filter_cons_of_neg (by simpa using hnot),
        List.filterMap_cons_none (by rw [hj]; rfl)]
      exact ih
    | ok k =>
      have htaken : j.LoadsInto m := exists_resolve_iff.1 ⟨k, hj⟩
      rw [List.filter_cons_of_pos (by simpa using htaken),
        List.filterMap_cons_some (by rw [hj]; rfl)]
      exact .cons hj ih

theorem resolvable_taken (js : List Join) : m.resolvable (m.taken js) = m.resolvable js := by
  rw [Model.resolvable, Model.taken, List.filterMap_filter]
  refine List.filterMap_congr fun j _ => ?_
  split
  next => rfl
  next hnot =>
    cases hj : j.resolve m with
    | error e => rfl
    | ok k => exact absurd (exists_resolve_iff.1 ⟨k, hj⟩) (by simpa using hnot)

/-- The joins that are loaded have their tables in the model. -/
theorem isSome_of_mem_resolvable {js : List Join} {k : Join} (hk : k ∈ m.resolvable js) (s : Side) :
    (m.tableAt (foldName (k.entity s))).isSome = true := by
  obtain ⟨j, -, hj⟩ := List.mem_filterMap.1 hk
  obtain ⟨hresolves, -⟩ := resolve_eq_ok_iff.1 (resolve_again (toOption_eq_some.1 hj))
  exact isSome_of_hasColumns (hresolves s)

theorem validateJoins_loadJoins (h : m.validateJoins = .ok ()) (js : List Join) :
    (m.loadJoins js).model.validateJoins = .ok () := by
  rw [Model.loadJoins, Model.validateJoins_compile]
  rw [Model.validateJoins_eq_ok] at h ⊢
  intro k hk
  rcases List.mem_append.1 hk with hold | hnew
  · exact h k hold
  · exact isSome_of_mem_resolvable hnew

end Batch

/-! ### What loading does -/

/-- What loading a batch does to a model: the joins that it takes stand behind those that it had,
    each as what it resolves to, their number is told, and names alone are made up.  The other joins
    of the batch have no influence, and no join lacks a table where none did before. -/
structure Model.Loads (m : Model) (js : List Join) (edited : Edited Nat) : Prop where
  tables : edited.model.tables = m.tables
  joins : ∃ loaded, List.Forall₂ (fun j k => j.resolve m = .ok k) (m.taken js) loaded ∧
    edited.result = loaded.length ∧
    List.Forall₂ Join.CompletedBy (m.joins ++ loaded) edited.model.joins
  others : edited = m.loadJoins (m.taken js)
  valid : m.validateJoins = .ok () → edited.model.validateJoins = .ok ()

/-- **Loading a batch brings in exactly the joins that resolve**, which are those whose tables and
    columns the model has and that have a pair of columns.  What a join resolves to is the same join
    in the spelling of the model, and resolves to itself. -/
theorem loadJoins_exact (m : Model) (js : List Join) :
    m.Loads js (m.loadJoins js) ∧
      ∀ j : Join, ((∃ k, j.resolve m = .ok k) ↔ j.LoadsInto m) ∧
        ∀ k, j.resolve m = .ok k →
          j.ResolvedTo m k ∧ k.signature = j.signature ∧ k.resolve m = .ok k := by
  refine ⟨⟨rfl, ⟨m.resolvable js, forall₂_resolvable js, rfl, completedBy_nameJoins _ _⟩, ?_,
    fun hvalid => validateJoins_loadJoins hvalid js⟩, fun j => ⟨exists_resolve_iff, fun k hk => ?_⟩⟩
  · rw [Model.loadJoins, Model.loadJoins, resolvable_taken]
  · have hspelled := (resolve_eq_ok_iff.1 hk).2.spelledAs
    exact ⟨resolvedTo_of_resolve hk, hspelled.signature_eq, resolve_again hk⟩

end SchemaDrift
