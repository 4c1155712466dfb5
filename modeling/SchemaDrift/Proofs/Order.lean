/-
  SchemaDrift/Proofs/Order.lean
  =============================
  **The order of execution is a stable sort.**

  `sortTokens` orders by rank alone, and leaving tokens out does not disturb the order
  of the others (`filter_sortTokens`).  As no two kinds share a rank, an ordered list is
  known once the items of each kind are, in their order (`eq_of_sameByKind`), and sorting
  forgets no more than how the kinds were mixed (`sortTokens_eq_iff`).

  A run only looks at the changes of its tokens.  For a list of changes in order no
  more has to be known than which changes they are: the list falls into the changes up
  to a rank and those above it (`Change.InOrder.eq_append`), and where no rank occurs
  twice there is only one such list (`Change.InOrder.eq_of_perm`).  Main statement:
  `sortTokens_kindwise`.
-/
import Mathlib.Data.List.Nodup
import Mathlib.Data.List.Perm.Basic
import SchemaDrift.Change.Basic

namespace SchemaDrift

/-! ### Sorted lists of tokens -/

/-- Tokens of which none comes before one of a lower rank. -/
abbrev InOrder (ts : List Token) : Prop := ts.Pairwise fun t u => t.priority ≤ u.priority

theorem perm_insertToken (t : Token) (ts : List Token) : (insertToken t ts).Perm (t :: ts) := by
  induction ts with
  | nil => exact List.Perm.refl _
  | cons u us ih =>
    rw [insertToken]
    split
    next => exact List.Perm.refl _
    next => exact (ih.cons u).trans (List.Perm.swap t u us)

theorem perm_sortTokens (ts : List Token) : (sortTokens ts).Perm ts := by
  induction ts with
  | nil => exact List.Perm.refl _
  | cons t ts ih => exact (perm_insertToken t _).trans (ih.cons t)

theorem inOrder_insertToken (t : Token) {ts : List Token} (h : InOrder ts) :
    InOrder (insertToken t ts) := by
  induction ts with
  | nil => exact List.pairwise_singleton _ _
  | cons u us ih =>
    obtain ⟨hu, hus⟩ := List.pairwise_cons.1 h
    rw [insertToken]
    split
    next htu =>
      refine List.pairwise_cons.2 ⟨fun v hv => ?_, h⟩
      rcases List.mem_cons.1 hv with rfl | hv
      · exact htu
      · exact Nat.le_trans htu (hu v hv)
    next htu =>
      refine List.pairwise_cons.2 ⟨fun v hv => ?_, ih hus⟩
      rcases List.mem_cons.1 ((perm_insertToken t us).subset hv) with rfl | hv
      · exact Nat.le_of_lt (Nat.not_le.1 htu)
      · exact hu v hv

theorem inOrder_sortTokens (ts : List Token) : InOrder (sortTokens ts) := by
  induction ts with
  | nil => exact List.Pairwise.nil
  | cons t ts ih => exact inOrder_insertToken t ih

theorem insertToken_of_le {t : Token} {ts : List Token}
    (h : ∀ u ∈ ts, t.priority ≤ u.priority) : insertToken t ts = t :: ts := by
  cases ts with
  | nil => rfl
  | cons u us => rw [insertToken, if_pos (h u List.mem_cons_self)]

theorem sortTokens_of_inOrder {ts : List Token} (h : InOrder ts) : sortTokens ts = ts := by
  induction ts with
  | nil => rfl
  | cons t ts ih =>
    obtain ⟨ht, hts⟩ := List.pairwise_cons.1 h
    change insertToken t (sortTokens ts) = t :: ts
    rw [ih hts, insertToken_of_le ht]

/-! ### Leaving tokens out -/

theorem filter_insertToken (p : Token → Bool) (t : Token) {ts : List Token} (h : InOrder ts) :
    (insertToken t ts).filter p =
      if p t then insertToken t (ts.filter p) else ts.filter p := by
  induction ts with
  | nil => cases hp : p t <;> simp [insertToken, hp]
  | cons u us ih =>
    obtain ⟨hu, hus⟩ := List.pairwise_cons.1 h
    rw [insertToken]
    split
    next htu =>
      -- everything that is kept still comes after `t`
      have hkept : ∀ v ∈ (u :: us).filter p, t.priority ≤ v.priority := by
        intro v hv
        rcases List.mem_cons.1 (List.mem_of_mem_filter hv) with rfl | hv
        · exact htu
        · exact Nat.le_trans htu (hu v hv)
      rw [List.filter_cons, insertToken_of_le hkept]
    next htu =>
      rw [List.filter_cons, ih hus]
      by_cases hpu : p u = true
      · rw [if_pos hpu, List.filter_cons_of_pos hpu]
        split
        next => rw [insertToken, if_neg htu]
        next => rfl
      · rw [if_neg hpu, List.filter_cons_of_neg hpu]

/-- The tokens that are kept run in the order in which they run among the others. -/
theorem filter_sortTokens (p : Token → Bool) (ts : List Token) :
    (sortTokens ts).filter p = sortTokens (ts.filter p) := by
  induction ts with
  | nil => rfl
  | cons t ts ih =>
    change (insertToken t (sortTokens ts)).filter p = _
    rw [filter_insertToken p t (inOrder_sortTokens ts), ih, List.filter_cons]
    split
    next => rfl
    next => rfl

/-! ### Rewriting tokens -/

section Map

variable {f : Token → Token} (h : ∀ t, (f t).priority = t.priority)

include h

theorem insertToken_map (t : Token) (ts : List Token) :
    insertToken (f t) (ts.map f) = (insertToken t ts).map f := by
  induction ts with
  | nil => rfl
  | cons u us ih =>
    rw [List.map_cons, insertToken, insertToken, h, h, ih]
    split
    · rfl
    · rfl

/-- Tokens that are rewritten within their ranks stay where they are. -/
theorem sortTokens_map (ts : List Token) : sortTokens (ts.map f) = (sortTokens ts).map f := by
  induction ts with
  | nil => rfl
  | cons t ts ih =>
    change insertToken (f t) (sortTokens (ts.map f)) = (insertToken t (sortTokens ts)).map f
    rw [ih, insertToken_map h]

end Map

/-! ### Changes in order -/

namespace Change

/-- Changes of which none comes before one of a lower rank. -/
abbrev InOrder (cs : List Change) : Prop := cs.Pairwise fun c d => c.kind.priority ≤ d.kind.priority

theorem inOrder_of_sortTokens (ts : List Token) : InOrder ((sortTokens ts).map Token.change) :=
  List.pairwise_map.2 (inOrder_sortTokens ts)

/-- Changes in order are those up to a rank followed by those above it. -/
theorem InOrder.eq_append {cs : List Change} (h : InOrder cs) (rank : Nat) :
    cs = cs.filter (fun c => decide (c.kind.priority ≤ rank)) ++
      cs.filter (fun c => !decide (c.kind.priority ≤ rank)) := by
  induction cs with
  | nil => rfl
  | cons c cs ih =>
    obtain ⟨hc, hcs⟩ := List.pairwise_cons.1 h
    by_cases hle : c.kind.priority ≤ rank
    · simp only [List.filter_cons, hle, decide_true, Bool.not_true, Bool.false_eq_true, if_true,
        if_false, List.cons_append]
      rw [← ih hcs]
    · have hnone : cs.filter (fun d => decide (d.kind.priority ≤ rank)) = [] := by
        refine List.filter_eq_nil_iff.2 fun d hd => ?_
        have := hc d hd
        simp only [decide_eq_true_eq]
        omega
      have hall : cs.filter (fun d => !decide (d.kind.priority ≤ rank)) = cs := by
        have hsplit := ih hcs
        rw [hnone, List.nil_append] at hsplit
        exact hsplit.symm
      simp [hle, hnone, hall]

/-- Changes of strictly increasing ranks are the only way to put them in order. -/
theorem InOrder.eq_of_perm {cs ds : List Change} (hcs : InOrder cs) (hperm : cs.Perm ds)
    (hds : ds.Pairwise fun c d => c.kind.priority < d.kind.priority) : cs = ds := by
  refine hperm.eq_of_pairwise (fun c d hc hd hcd hdc => ?_) hcs (hds.imp Nat.le_of_lt)
  have hranks : (ds.map fun c => c.kind.priority).Nodup :=
    List.pairwise_map.2 (hds.imp Nat.ne_of_lt)
  exact List.inj_on_of_nodup_map hranks (hperm.subset hc) hd (Nat.le_antisymm hcd hdc)

end Change

/-! ### Items kind by kind -/

theorem ChangeKind.dual_eq_iff {a b : ChangeKind} : a.dual = b ↔ a = b.dual := by
  constructor
  · rintro rfl
    rw [dual_dual]
  · rintro rfl
    rw [dual_dual]

section Kinds

variable {α β : Type} {kindOf : α → ChangeKind} {xs ys zs xs' ys' : List α}

/-- Lists that hold the same items of each kind, in the same order. -/
def SameByKind (kindOf : α → ChangeKind) (xs ys : List α) : Prop :=
  ∀ kind, xs.filter (kindOf · = kind) = ys.filter (kindOf · = kind)

namespace SameByKind

theorem refl (xs : List α) : SameByKind kindOf xs xs := fun _ => rfl

theorem symm (h : SameByKind kindOf xs ys) : SameByKind kindOf ys xs := fun kind => (h kind).symm

theorem trans (h : SameByKind kindOf xs ys) (h' : SameByKind kindOf ys zs) :
    SameByKind kindOf xs zs := fun kind => (h kind).trans (h' kind)

theorem append (h : SameByKind kindOf xs ys) (h' : SameByKind kindOf xs' ys') :
    SameByKind kindOf (xs ++ xs') (ys ++ ys') := by
  intro kind
  rw [List.filter_append, List.filter_append, h kind, h' kind]

/-- Lists without a kind in common can be put together either way round. -/
theorem append_comm (h : ∀ x ∈ xs, ∀ y ∈ ys, kindOf x ≠ kindOf y) :
    SameByKind kindOf (xs ++ ys) (ys ++ xs) := by
  intro kind
  rw [List.filter_append, List.filter_append]
  by_cases hkind : ∃ x ∈ xs, kindOf x = kind
  · obtain ⟨x, hx, rfl⟩ := hkind
    have hnone : ys.filter (kindOf · = kindOf x) = [] := by
      apply List.filter_eq_nil_iff.2
      intro y hy
      simpa using (h x hx y hy).symm
    rw [hnone, List.append_nil, List.nil_append]
  · have hnone : xs.filter (kindOf · = kind) = [] := by
      apply List.filter_eq_nil_iff.2
      intro x hx hk
      exact hkind ⟨x, hx, by simpa using hk⟩
    rw [hnone, List.append_nil, List.nil_append]

theorem flatMap {f g : β → List α} {items : List β}
    (h : ∀ item ∈ items, SameByKind kindOf (f item) (g item)) :
    SameByKind kindOf (items.flatMap f) (items.flatMap g) := by
  induction items with
  | nil => exact refl _
  | cons item items ih =>
    obtain ⟨hitem, hitems⟩ := List.forall_mem_cons.1 h
    rw [List.flatMap_cons, List.flatMap_cons]
    exact hitem.append (ih hitems)

theorem mem (h : SameByKind kindOf xs ys) {x : α} (hx : x ∈ xs) : x ∈ ys := by
  have hkind : x ∈ xs.filter (kindOf · = kindOf x) := List.mem_filter.2 ⟨hx, by simp⟩
  rw [h] at hkind
  exact List.mem_of_mem_filter hkind

/-- Items may be rewritten all alike if the kind they had can be told from the kind they get. -/
theorem map {kindOf' : β → ChangeKind} {f : α → β} {kindBefore : ChangeKind → ChangeKind}
    (hf : ∀ x kind, kindOf' (f x) = kind ↔ kindOf x = kindBefore kind)
    (h : SameByKind kindOf xs ys) : SameByKind kindOf' (xs.map f) (ys.map f) := by
  have hkind : ∀ (zs : List α) (kind : ChangeKind),
      (zs.map f).filter (kindOf' · = kind) = (zs.filter (kindOf · = kindBefore kind)).map f := by
    intro zs kind
    rw [List.filter_map]
    apply congrArg (List.map f)
    apply List.filter_congr
    intro x _
    simp [hf x kind]
  intro kind
  rw [hkind, hkind, h]

theorem of_cons {x : α} (h : SameByKind kindOf (x :: xs) (x :: ys)) : SameByKind kindOf xs ys := by
  intro kind
  have hkind := h kind
  rw [List.filter_cons, List.filter_cons] at hkind
  split at hkind
  · exact (List.cons.inj hkind).2
  · exact hkind

end SameByKind

/-- Ordered lists with the same items of each kind are one list. -/
theorem eq_of_sameByKind
    (hxs : xs.Pairwise fun x y => (kindOf x).priority ≤ (kindOf y).priority)
    (hys : ys.Pairwise fun x y => (kindOf x).priority ≤ (kindOf y).priority)
    (h : SameByKind kindOf xs ys) : xs = ys := by
  induction xs generalizing ys with
  | nil =>
    cases ys with
    | nil => rfl
    | cons y ys => cases h.symm.mem List.mem_cons_self
  | cons x xs ih =>
    cases ys with
    | nil => cases h.mem List.mem_cons_self
    | cons y ys =>
      obtain ⟨hx, hrest⟩ := List.pairwise_cons.1 hxs
      obtain ⟨hy, hrest'⟩ := List.pairwise_cons.1 hys
      -- each head is somewhere in the other list, so neither ranks above the other
      have hle : (kindOf x).priority ≤ (kindOf y).priority := by
        rcases List.mem_cons.1 (h.symm.mem List.mem_cons_self) with rfl | hmem
        · exact Nat.le_refl _
        · exact hx y hmem
      have hge : (kindOf y).priority ≤ (kindOf x).priority := by
        rcases List.mem_cons.1 (h.mem List.mem_cons_self) with rfl | hmem
        · exact Nat.le_refl _
        · exact hy x hmem
      have hkind : kindOf y = kindOf x := ChangeKind.priority_inj (Nat.le_antisymm hge hle)
      have hhead := h (kindOf x)
      rw [List.filter_cons_of_pos (by simp), List.filter_cons_of_pos (by simp [hkind])] at hhead
      obtain rfl : x = y := (List.cons.inj hhead).1
      rw [ih hrest hrest' h.of_cons]

end Kinds

theorem sameByKind_sortTokens (ts : List Token) : SameByKind Token.kind (sortTokens ts) ts := by
  intro kind
  rw [filter_sortTokens]
  apply sortTokens_of_inOrder
  apply List.pairwise_of_forall_mem_list
  intro t ht u hu
  have hkind : t.kind = kind := by simpa using List.of_mem_filter ht
  have hkind' : u.kind = kind := by simpa using List.of_mem_filter hu
  have hrank : t.priority = u.priority := by rw [Token.priority, hkind, Token.priority, hkind']
  exact Nat.le_of_eq hrank

/-- Sorting forgets how the kinds are mixed and nothing else. -/
theorem sortTokens_eq_iff {ts us : List Token} :
    sortTokens ts = sortTokens us ↔ SameByKind Token.kind ts us := by
  have hts := sameByKind_sortTokens ts
  have hus := sameByKind_sortTokens us
  constructor
  · intro h
    exact hts.symm.trans (h ▸ hus)
  · intro h
    exact eq_of_sameByKind (inOrder_sortTokens ts) (inOrder_sortTokens us)
      ((hts.trans h).trans hus.symm)

namespace Change

theorem sameByKind_map_change {ts us : List Token} (h : SameByKind Token.kind ts us) :
    SameByKind kind (ts.map Token.change) (us.map Token.change) :=
  h.map fun _ _ => Iff.rfl

theorem sameByKind_map_dual {cs ds : List Change} (h : SameByKind kind cs ds) :
    SameByKind kind (cs.map dual) (ds.map dual) := by
  apply h.map
  intro c k
  rw [kind_dual, ChangeKind.dual_eq_iff]

end Change

/-! ### The order of execution -/

/-- **The order of execution is settled by the order within each kind.**  Sorting gives the one list
    that holds the same tokens, by increasing ranks, with those of each kind in the order they
    had; it gives one list for two exactly if they have the same tokens of each kind, in the same
    order.  It does not matter whether some of the tokens are selected before or after, so that a
    selection of sorted tokens is sorted. -/
theorem sortTokens_kindwise (ts : List Token) :
    (∀ us, us = sortTokens ts ↔ us.Perm ts ∧ InOrder us ∧ SameByKind Token.kind us ts) ∧
      (∀ us, sortTokens ts = sortTokens us ↔ SameByKind Token.kind ts us) ∧
      ∀ selected : Token → Bool,
        sortTokens (ts.filter selected) = (sortTokens ts).filter selected ∧
          sortTokens ((sortTokens ts).filter selected) = (sortTokens ts).filter selected := by
  refine ⟨?_, fun us => sortTokens_eq_iff, ?_⟩
  · intro us
    constructor
    · rintro rfl
      exact ⟨perm_sortTokens ts, inOrder_sortTokens ts, sameByKind_sortTokens ts⟩
    · rintro ⟨-, horder, hkinds⟩
      rw [← sortTokens_eq_iff.2 hkinds, sortTokens_of_inOrder horder]
  · intro selected
    have hkept : InOrder ((sortTokens ts).filter selected) := (inOrder_sortTokens ts).filter selected
    exact ⟨(filter_sortTokens selected ts).symm, sortTokens_of_inOrder hkept⟩

end SchemaDrift
