/-
  SchemaDrift/Proofs/Directions.lean
  ==================================
  **Joins that were taken apart into directions are put together again.**

  The two directions of a join run opposite ways.  Where no pair of columns is repeated
  nothing else runs opposite to one of them: directions that do have the same links
  (`links_of_isReverseOf`), so they belong to joins with one signature.  Hence the first
  direction that is met finds its own other half, wherever this stands, and the directions
  of the other joins are left (`exists_opposite`).  From which of the two sides a join is
  put together does not matter once it is in canonical orientation
  (`normalize_reversed`), provided that its sides differ in the spelling of their tables
  or in their names.

  Main statement, by induction along the directions: `toJoins_directions`.
-/
import Mathlib.Data.List.Nodup
import Mathlib.Data.List.Perm.Subperm
import SchemaDrift.Proofs.JoinFile
import SchemaDrift.Proofs.Linkage
import SchemaDrift.Proofs.Normalization

namespace SchemaDrift

theorem Condition.ofPairs_swap {c : Condition} (h : ofPairs c.pairs = .ok c) :
    ofPairs c.swap.pairs = .ok c.swap := by
  cases c with
  | single pair => rfl
  | composite pairs =>
    cases pairs with
    | nil => cases h
    | cons first pairs =>
      cases pairs with
      | nil => cases h
      | cons second pairs => rfl

namespace Join

/-! ### Directions -/

/-- The direction of a join that starts at a side. -/
def direction (j : Join) (s : Side) : Directed where
  source := j.entity s
  target := j.entity s.opposite
  name := j.name? s
  toMany := j.isToMany s
  toDependentKey := j.isToDependentKey s
  pairs := j.condition.pairs.map fun pair => ⟨pair.get s, pair.get s.opposite⟩

def directions (j : Join) : List Directed := Side.both.map j.direction

/-- Joins that are known from their two directions, and whose sides can be told apart. -/
structure IsDirectable (j : Join) : Prop where
  entities : ∀ s, isBlank (j.entity s) = false
  declared : j.synthesized = ⟨false, false⟩
  condition : Condition.ofPairs j.condition.pairs = .ok j.condition
  pairs_distinct :
    (j.condition.pairs.map fun pair => (foldName pair.left, foldName pair.right)).Nodup
  /-- The tables are spelled in two ways, or the names differ. -/
  sides_distinct : j.entities.left = j.entities.right → j.names.left ≠ j.names.right

theorem IsDirectable.not_isTied {j : Join} (h : j.IsDirectable) : ¬ j.IsTied := by
  rintro ⟨hentities, hnames⟩
  rw [declaredName?, declaredName?, isSynthesized, isSynthesized, h.declared] at hnames
  exact h.sides_distinct hentities hnames

theorem mem_directions {j : Join} {d : Directed} : d ∈ j.directions ↔ ∃ s, j.direction s = d := by
  constructor
  · intro h
    obtain ⟨s, -, hs⟩ := List.mem_map.1 h
    exact ⟨s, hs⟩
  · rintro ⟨s, rfl⟩
    exact List.mem_map_of_mem (by cases s <;> decide)

theorem perm_directions (j : Join) (s : Side) :
    j.directions.Perm [j.direction s, j.direction s.opposite] := by
  cases s with
  | left => exact .refl _
  | right => exact .swap _ _ _

theorem direction_reversed (j : Join) (s : Side) :
    j.reversed.direction s = j.direction s.opposite := by
  obtain ⟨entities, names, synthesized, cardinality, dependentKey, condition⟩ := j
  have hdependent : (dependentKey.reverse.side? == some s) =
      (dependentKey.side? == some s.opposite) := by
    cases dependentKey <;> cases s <;> rfl
  simp only [direction, reversed, entity, name?, isToMany, isToDependentKey, Sides.get_swap,
    Cardinality.isToMany_reverse, hdependent, Condition.pairs_swap, List.map_map,
    Function.comp_def]

/-- What holds of the direction from the left, and of a join as soon as it holds of the join written
    from the other side, holds of both directions. -/
theorem direction_induction {P : Join → Directed → Prop} (hleft : ∀ j, P j (j.direction .left))
    (hreversed : ∀ j d, P j.reversed d → P j d) (j : Join) (s : Side) : P j (j.direction s) := by
  cases s with
  | left => exact hleft j
  | right =>
    apply hreversed
    have hright := hleft j.reversed
    rwa [direction_reversed] at hright

theorem IsDirectable.reversed {j : Join} (h : j.IsDirectable) : j.reversed.IsDirectable where
  entities s := by
    rw [entity_reversed]
    exact h.entities s.opposite
  declared := congrArg Sides.swap h.declared
  condition := Condition.ofPairs_swap h.condition
  pairs_distinct := by
    rw [Join.reversed, Condition.pairs_swap, List.map_map]
    have hswap := h.pairs_distinct.map Prod.swap_injective
    rwa [List.map_map] at hswap
  sides_distinct heq := (h.sides_distinct heq.symm).symm

/-! ### Putting together -/

theorem ofFlags_isToMany (c : Cardinality) :
    Cardinality.ofFlags (c.isToMany .left) (c.isToMany .right) = c := by
  cases c <;> rfl

theorem ofFlags_side? (d : DependentKey) :
    DependentKey.ofFlags (d.side? == some .left) (d.side? == some .right) = .ok d := by
  cases d <;> rfl

theorem IsDirectable.ofPairs {j : Join} (h : j.IsDirectable) :
    Join.ofPairs j.entities j.names j.cardinality j.dependentKey j.condition.pairs = .ok j := by
  have hblank := (any_isBlank_entities j).2 h.entities
  obtain ⟨entities, names, synthesized, cardinality, dependentKey, condition⟩ := j
  obtain rfl : synthesized = ⟨false, false⟩ := h.declared
  rw [Join.ofPairs, h.condition]
  change make entities names cardinality dependentKey condition = _
  rw [make, hblank]
  rfl

theorem toJoin_left {j : Join} (h : j.IsDirectable) :
    (j.direction .left).toJoin (some (j.direction .right)) = .ok j.normalize := by
  have hpairs : (j.direction .left).pairs = j.condition.pairs := List.map_id _
  have hdependent : DependentKey.ofFlags (j.isToDependentKey .left) (j.isToDependentKey .right) =
      .ok j.dependentKey := ofFlags_side? j.dependentKey
  have hcardinality : Cardinality.ofFlags (j.isToMany .left) (j.isToMany .right) =
      j.cardinality := ofFlags_isToMany j.cardinality
  rw [Directed.toJoin, hpairs]
  change (DependentKey.ofFlags (j.isToDependentKey .left) (j.isToDependentKey .right) >>=
    fun dependentKey => Join.ofPairs j.entities j.names
      (.ofFlags (j.isToMany .left) (j.isToMany .right)) dependentKey j.condition.pairs >>=
        fun join => pure join.normalize) = _
  rw [hdependent, hcardinality]
  change (Join.ofPairs j.entities j.names j.cardinality j.dependentKey j.condition.pairs >>=
    fun join => pure join.normalize) = _
  rw [h.ofPairs]
  rfl

/-- The two directions of a join give the join back, whichever comes first. -/
theorem toJoin_direction {j : Join} (h : j.IsDirectable) (s : Side) :
    (j.direction s).toJoin (some (j.direction s.opposite)) = .ok j.normalize := by
  cases s with
  | left => exact toJoin_left h
  | right =>
    have hright := toJoin_left h.reversed
    rwa [direction_reversed, direction_reversed, normalize_reversed h.not_isTied] at hright

end Join

/-! ### Opposite directions -/

namespace Directed

/-- The pairs of columns of a direction, without regard to case. -/
def foldedPairs (d : Directed) : List (String × String) :=
  d.pairs.map fun pair => (foldName pair.left, foldName pair.right)

/-- What a direction links, as a join does. -/
def links (d : Directed) : Finset (Sym2 (String × String)) :=
  (d.foldedPairs.map fun columns =>
    s((foldName d.source, columns.1), (foldName d.target, columns.2))).toFinset

theorem isReverseOf_iff {d e : Directed} :
    d.isReverseOf e = true ↔
      (foldName d.source = foldName e.target ∧ foldName d.target = foldName e.source) ∧
        d.pairs.length = e.pairs.length ∧
          ∀ p ∈ d.pairs, ∃ q ∈ e.pairs,
            foldName p.left = foldName q.right ∧ foldName p.right = foldName q.left := by
  simp [isReverseOf, oppositePairs, sameName_iff, and_assoc]

/-- As many pairs without repetition, each turned round, are all pairs turned round. -/
theorem perm_foldedPairs_of_isReverseOf {d e : Directed} (hdistinct : d.foldedPairs.Nodup)
    (h : d.isReverseOf e = true) : d.foldedPairs.Perm (e.foldedPairs.map Prod.swap) := by
  obtain ⟨-, hlength, hpairs⟩ := isReverseOf_iff.1 h
  have hsubset : d.foldedPairs ⊆ e.foldedPairs.map Prod.swap := by
    intro columns hcolumns
    obtain ⟨p, hp, rfl⟩ := List.mem_map.1 hcolumns
    obtain ⟨q, hq, hleft, hright⟩ := hpairs p hp
    rw [hleft, hright]
    exact List.mem_map_of_mem (List.mem_map_of_mem hq)
  apply (List.subperm_of_subset hdistinct hsubset).perm_of_length_le
  simp only [foldedPairs, List.length_map, hlength, le_refl]

theorem links_of_isReverseOf {d e : Directed} (hdistinct : d.foldedPairs.Nodup)
    (h : d.isReverseOf e = true) : d.links = e.links := by
  obtain ⟨⟨hsource, htarget⟩, -⟩ := isReverseOf_iff.1 h
  rw [links, links, hsource, htarget]
  refine (List.toFinset_eq_of_perm _ _
    ((perm_foldedPairs_of_isReverseOf hdistinct h).map _)).trans ?_
  rw [List.map_map]
  congr 1
  exact List.map_congr_left fun columns _ => Sym2.eq_swap

end Directed

namespace Join

theorem links_direction (j : Join) (s : Side) : (j.direction s).links = j.links := by
  refine direction_induction (P := fun j d => d.links = j.links) (fun j => ?_)
    (fun j d h => h.trans (links_reversed j)) j s
  have hpairs : (j.direction .left).pairs = j.condition.pairs := List.map_id _
  ext l
  rw [Directed.links, Directed.foldedPairs, hpairs, List.map_map, List.mem_toFinset,
    List.mem_map, mem_links]
  rfl

theorem IsDirectable.nodup_foldedPairs {j : Join} (h : j.IsDirectable) (s : Side) :
    (j.direction s).foldedPairs.Nodup := by
  refine direction_induction (P := fun j d => j.IsDirectable → d.foldedPairs.Nodup)
    (fun j h => ?_) (fun j d hd h => hd h.reversed) j s h
  rw [Directed.foldedPairs, direction, List.map_map]
  exact h.pairs_distinct

/-- Only directions of joins with one signature run opposite ways. -/
theorem signature_eq_of_isReverseOf {j k : Join} (hj : j.IsDirectable) {s s' : Side}
    (h : (j.direction s).isReverseOf (k.direction s') = true) : j.signature = k.signature := by
  apply signature_eq_of_links_eq
  rw [← links_direction j s, Directed.links_of_isReverseOf (hj.nodup_foldedPairs s) h,
    links_direction]

theorem isReverseOf_opposite (j : Join) (s : Side) :
    (j.direction s.opposite).isReverseOf (j.direction s) = true := by
  have hlength : (j.direction s.opposite).pairs.length = (j.direction s).pairs.length := by
    simp only [direction, List.length_map]
  have hpairs : ∀ p ∈ (j.direction s.opposite).pairs, ∃ q ∈ (j.direction s).pairs,
      foldName p.left = foldName q.right ∧ foldName p.right = foldName q.left := by
    intro p hp
    obtain ⟨pair, hpair, rfl⟩ := List.mem_map.1 hp
    rw [Side.opposite_opposite]
    exact ⟨_, List.mem_map_of_mem hpair, rfl, rfl⟩
  have htarget : (j.direction s.opposite).target = (j.direction s).source :=
    congrArg j.entity s.opposite_opposite
  exact Directed.isReverseOf_iff.2 ⟨⟨rfl, congrArg foldName htarget⟩, hlength, hpairs⟩

theorem signature_eq_of_direction_eq {j k : Join} {s s' : Side}
    (h : j.direction s = k.direction s') : j.signature = k.signature := by
  apply signature_eq_of_links_eq
  rw [← links_direction j s, h, links_direction]

end Join

/-! ### Meeting the directions in turn -/

section Split

variable {α : Type} {p q : α → Bool} {x : α} {before after : List α}

/-- A list with just one item that passes a test, taken apart there. -/
theorem exists_split {xs others : List α} (hperm : xs.Perm (x :: others)) (hx : p x = true)
    (hothers : ∀ y ∈ others, p y = false) :
    ∃ before after, xs = before ++ x :: after ∧ (before ++ after).Perm others ∧
      xs.find? p = some x ∧ xs.eraseP p = before ++ after := by
  obtain ⟨before, after, rfl⟩ := List.append_of_mem (hperm.mem_iff.2 List.mem_cons_self)
  have hrest : (before ++ after).Perm others := (List.perm_middle.symm.trans hperm).cons_inv
  have hbefore : ∀ y ∈ before, ¬ p y = true := by
    intro y hy
    rw [hothers y (hrest.mem_iff.1 (List.mem_append_left after hy))]
    exact Bool.false_ne_true
  refine ⟨before, after, rfl, hrest, ?_, ?_⟩
  · rw [List.find?_append, List.find?_eq_none.2 hbefore, List.find?_cons_of_pos hx]
    rfl
  · rw [List.eraseP_append_right _ hbefore, List.eraseP_cons_of_pos hx]

/-- An item that passes neither of two tests has no influence on which is passed first. -/
theorem findIdx_lt_of_skip (hp : p x = false) (hq : q x = false)
    (h : (before ++ after).findIdx p < (before ++ after).findIdx q) :
    (before ++ x :: after).findIdx p < (before ++ x :: after).findIdx q := by
  simp only [List.findIdx_append, List.findIdx_cons, hp, hq, cond_false] at h ⊢
  split_ifs at h ⊢ <;> omega

end Split

namespace Join

/-- The place of the first direction of a join among directions. -/
def firstIn (j : Join) (ds : List Directed) : Nat := ds.findIdx (· ∈ j.directions)

theorem firstIn_cons_of_mem {j : Join} {d : Directed} (ds : List Directed)
    (h : d ∈ j.directions) : j.firstIn (d :: ds) = 0 := by
  rw [firstIn, List.findIdx_cons, decide_eq_true h]
  rfl

theorem firstIn_cons_of_notMem {j : Join} {d : Directed} (ds : List Directed)
    (h : d ∉ j.directions) : j.firstIn (d :: ds) = j.firstIn ds + 1 := by
  rw [firstIn, List.findIdx_cons, decide_eq_false h]
  rfl

section Remaining

variable {js : List Join} {j : Join}

theorem signature_ne_of_mem_erase (hdistinct : (js.map signature).Nodup) (hj : j ∈ js) :
    ∀ k ∈ js.erase j, k.signature ≠ j.signature := by
  intro k hk heq
  have hperm := (List.perm_cons_erase hj).map signature
  exact (List.nodup_cons.1 (hperm.nodup hdistinct)).1 (heq ▸ List.mem_map_of_mem hk)

/-- Behind one direction of a join comes the other, which alone runs the opposite way, amid the
    directions of the other joins. -/
theorem exists_opposite {rest : List Directed} {s : Side} (hjs : ∀ k ∈ js, k.IsDirectable)
    (hdistinct : (js.map signature).Nodup) (hj : j ∈ js)
    (hds : (j.direction s :: rest).Perm (js.flatMap directions)) :
    ∃ before after, rest = before ++ j.direction s.opposite :: after ∧
      (before ++ after).Perm ((js.erase j).flatMap directions) ∧
      rest.find? (·.isReverseOf (j.direction s)) = some (j.direction s.opposite) ∧
      rest.eraseP (·.isReverseOf (j.direction s)) = before ++ after := by
  have hall : (js.flatMap directions).Perm
      ([j.direction s, j.direction s.opposite] ++ (js.erase j).flatMap directions) :=
    ((List.perm_cons_erase hj).flatMap_right directions).trans
      ((j.perm_directions s).append_right _)
  have hrest := (hds.trans hall).cons_inv
  refine exists_split hrest (j.isReverseOf_opposite s) fun d hd => ?_
  obtain ⟨k, hk, hd⟩ := List.mem_flatMap.1 hd
  obtain ⟨s', rfl⟩ := mem_directions.1 hd
  by_contra hreverse
  refine signature_ne_of_mem_erase hdistinct hj k hk ?_
  exact signature_eq_of_isReverseOf (hjs k (List.mem_of_mem_erase hk)) (by simpa using hreverse)

theorem direction_notMem (hdistinct : (js.map signature).Nodup) (hj : j ∈ js) (s : Side) :
    ∀ k ∈ js.erase j, j.direction s ∉ k.directions := by
  intro k hk hmem
  obtain ⟨s', heq⟩ := mem_directions.1 hmem
  exact signature_ne_of_mem_erase hdistinct hj k hk (signature_eq_of_direction_eq heq)

end Remaining

end Join

/-- **The directions of joins, in any order, give back the joins** in canonical orientation, each
    of them once, in the order in which a direction of them comes first. -/
theorem toJoins_directions {js : List Join} {ds : List Directed}
    (hjs : ∀ j ∈ js, j.IsDirectable) (hdistinct : (js.map Join.signature).Nodup)
    (hds : ds.Perm (js.flatMap Join.directions)) :
    ∃ ks : List Join, ks.Perm js ∧ ks.Pairwise (fun j k => j.firstIn ds < k.firstIn ds) ∧
      Directed.toJoins ds = .ok (ks.map Join.normalize) := by
  induction ds using Directed.toJoins.induct generalizing js with
  | case1 =>
    cases js with
    | nil => exact ⟨[], .refl _, .nil, by rw [Directed.toJoins]; rfl⟩
    | cons j js => exact absurd hds.nil_eq (List.cons_ne_nil _ _).symm
  | case2 forward rest ih =>
    obtain ⟨j, hj, hforward⟩ := List.mem_flatMap.1 (hds.mem_iff.1 List.mem_cons_self)
    obtain ⟨s, rfl⟩ := Join.mem_directions.1 hforward
    obtain ⟨before, after, rfl, hleft, hfind, herased⟩ :=
      Join.exists_opposite hjs hdistinct hj hds
    have hjs' : ∀ k ∈ js.erase j, k.IsDirectable := fun k hk =>
      hjs k (List.mem_of_mem_erase hk)
    have hdistinct' : ((js.erase j).map Join.signature).Nodup :=
      hdistinct.sublist (List.erase_sublist.map Join.signature)
    rw [herased] at ih
    obtain ⟨ks, hperm, horder, hjoins⟩ := ih hjs' hdistinct' hleft
    have hforeign : ∀ k ∈ ks, ∀ s', j.direction s' ∉ k.directions := fun k hk s' =>
      Join.direction_notMem hdistinct hj s' k (hperm.mem_iff.1 hk)
    refine ⟨j :: ks, (hperm.cons j).trans (List.perm_cons_erase hj).symm,
      .cons (fun k hk => ?_) (horder.imp_of_mem fun {k l} hk hl hlt => ?_), ?_⟩
    · rw [Join.firstIn_cons_of_mem _ hforward, Join.firstIn_cons_of_notMem _ (hforeign k hk s)]
      exact Nat.succ_pos _
    · rw [Join.firstIn_cons_of_notMem _ (hforeign k hk s),
        Join.firstIn_cons_of_notMem _ (hforeign l hl s)]
      exact Nat.succ_lt_succ (findIdx_lt_of_skip (decide_eq_false (hforeign k hk s.opposite))
        (decide_eq_false (hforeign l hl s.opposite)) hlt)
    · rw [Directed.toJoins, hfind, herased, Join.toJoin_direction (hjs j hj) s, hjoins]
      rfl

/-- Who reports to whom in a company. -/
def reportsJoin : Join :=
  { Join.staffJoin "STAFF" "STAFF" (.single ⟨"ID", "BOSS"⟩) with
    names := ⟨some "reports", some "boss"⟩ }

/-- Who works where in a company. -/
def areaJoin : Join :=
  Join.staffJoin "Staff" "AREA" (.composite [⟨"SITE", "SITE"⟩, ⟨"AREA_ID", "ID"⟩])

theorem toJoins_directions_staff :
    Directed.toJoins [reportsJoin.direction .right, areaJoin.direction .right,
        areaJoin.direction .left, reportsJoin.direction .left] =
      .ok [reportsJoin.normalize, areaJoin.normalize] := by
  have hreports : reportsJoin.IsDirectable :=
    ⟨fun s => by cases s <;> decide, rfl, rfl, by decide, by decide⟩
  have harea : areaJoin.IsDirectable :=
    ⟨fun s => by cases s <;> decide, rfl, rfl, by decide, by decide⟩
  have hjs : ∀ j ∈ [areaJoin, reportsJoin], j.IsDirectable :=
    List.forall_mem_cons.2 ⟨harea, List.forall_mem_singleton.2 hreports⟩
  have hds : [reportsJoin.direction .right, areaJoin.direction .right, areaJoin.direction .left,
      reportsJoin.direction .left].Perm ([areaJoin, reportsJoin].flatMap Join.directions) := by
    decide +kernel
  obtain ⟨ks, hperm, horder, hjoins⟩ := toJoins_directions hjs (by decide +kernel) hds
  have hks : ks = [reportsJoin, areaJoin] := by
    refine (hperm.trans (.swap _ _ _)).eq_of_pairwise (fun j k _ _ hjk hkj => ?_) horder
      (by decide +kernel)
    exact absurd hkj (lt_asymm hjk)
  rw [hjoins, hks]
  rfl

end SchemaDrift
