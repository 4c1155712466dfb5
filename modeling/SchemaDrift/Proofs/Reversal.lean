/-
  SchemaDrift/Proofs/Reversal.lean
  ================================
  **Reversing a plan twice puts its tokens in order and does nothing else.**

  A plan is reversed token by token and then sorted again, by the ranks of the dual kinds.
  This is quite another order: what was dropped first is now added last, and a column that
  was to allow NULL after the key was set now excludes it before.  Still nothing is lost on
  the way there and back.  Sorting never changes the order within a kind, and reversing
  takes all tokens of one kind to tokens of one other kind, so that each kind has its tokens
  in the order it had in the beginning (`sameByKind_reversed_twice`).  As no two kinds share
  a rank, there is only one way to put such tokens in order.  Main statement:
  `Plan.reversed_twice`.
-/
import SchemaDrift.Proofs.Convergence

namespace SchemaDrift

theorem sameByKind_map_reverse {ts us : List Token} (h : SameByKind Token.kind ts us) :
    SameByKind Token.kind (ts.map Token.reverse) (us.map Token.reverse) := by
  apply h.map
  intro t kind
  rw [Token.kind_reverse, ChangeKind.dual_eq_iff]

theorem map_reverse_map_reverse (ts : List Token) :
    (ts.map Token.reverse).map Token.reverse = ts := by
  simp [Function.comp_def]

/-- Each kind has its tokens back, in the order in which it had them. -/
theorem sameByKind_reversed_twice (ts : List Token) :
    SameByKind Token.kind ((sortTokens (ts.map Token.reverse)).map Token.reverse) ts := by
  have hback := sameByKind_map_reverse (sameByKind_sortTokens (ts.map Token.reverse))
  rwa [map_reverse_map_reverse] at hback

theorem sortTokens_reversed_twice (ts : List Token) :
    sortTokens ((sortTokens (ts.map Token.reverse)).map Token.reverse) = sortTokens ts :=
  sortTokens_eq_iff.2 (sameByKind_reversed_twice ts)

/-- Sorting leaves tokens alone exactly if they are in order. -/
theorem sortTokens_eq_self_iff {ts : List Token} : sortTokens ts = ts ↔ InOrder ts := by
  constructor
  · intro h
    rw [← h]
    exact inOrder_sortTokens ts
  · intro h
    exact sortTokens_of_inOrder h

theorem inOrder_of_plan {options : PlanOptions} {original imported : Model} {p : Plan}
    (h : plan options original imported = .ok p) : InOrder p.tokens := by
  obtain ⟨-, -, ofJoins, -, rfl⟩ := plan_eq_ok.1 h
  exact inOrder_sortTokens _

/-- **Reversing a plan twice sorts its tokens and nothing more**, whatever they are and in whatever
    order they come.  So it gives back the plans that are in order and no others; and every plan
    that was made by comparing two models is in order. -/
theorem Plan.reversed_twice (p : Plan) :
    p.reversed.reversed = { p with tokens := sortTokens p.tokens } ∧
      (p.reversed.reversed = p ↔ InOrder p.tokens) ∧
      ∀ options original imported, plan options original imported = .ok p →
        p.reversed.reversed = p := by
  have htwice : p.reversed.reversed = { p with tokens := sortTokens p.tokens } := by
    rw [reversed, reversed, sortTokens_reversed_twice]
  have hself : p.reversed.reversed = p ↔ InOrder p.tokens := by
    rw [htwice, ← sortTokens_eq_self_iff]
    constructor
    · intro h
      exact congrArg Plan.tokens h
    · intro h
      rw [h]
  refine ⟨htwice, hself, ?_⟩
  intro options original imported hplan
  exact hself.2 (inOrder_of_plan hplan)

theorem Plan.reversed_twice_sample :
    plan {} sampleModel sampleImport = .ok samplePlan ∧ samplePlan.tokens.length = 12 ∧
      samplePlan.reversed.tokens ≠ samplePlan.tokens.map Token.reverse ∧
      samplePlan.reversed.reversed = samplePlan :=
  ⟨plan_sample, by decide +kernel, by decide +kernel,
    (Plan.reversed_twice samplePlan).2.2 {} sampleModel sampleImport plan_sample⟩

end SchemaDrift
