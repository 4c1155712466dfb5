/-
  SchemaDrift/Proofs/EmptyPlan.lean
  =================================
  **What two models have in common when there is nothing to plan.**

  An empty plan pairs every join with one of the same signature.  A signature tells the
  tables and the pairs of columns but neither the direction nor the semantics, so the
  foreign keys of the two joins link the same columns of the same tables, one way or the
  other (`foreignKeys_of_empty_plan`).  The direction is the same as well where both joins
  determine it alike: by a declared dependence or by the one side that is fully to the
  primary key, or, without either, by being written from the same side.

  Joins of one signature whose semantics point opposite ways are not told apart
  (`plan_sharedKeys`).  Nor are joins without pairs, or with names that hold the
  separators of a signature, which is why both have to be ruled out.
-/
import SchemaDrift.Proofs.ForeignKey
import SchemaDrift.Proofs.PlanMoves

namespace SchemaDrift

/-! ### Foreign keys that link the same columns -/

namespace ForeignKey

/-- Each column with the column that it refers to. -/
def pairs (fk : ForeignKey) : List (String × String) := fk.columns.zip fk.referencedColumns

/-- Foreign keys that agree up to spelling and to the order of their pairs. -/
structure Agrees (a b : ForeignKey) : Prop where
  table : a.fold.table = b.fold.table
  referencedTable : a.fold.referencedTable = b.fold.referencedTable
  pairs : ∀ pair, pair ∈ a.fold.pairs ↔ pair ∈ b.fold.pairs

/-- Whether a foreign key links a column to another, in one direction or the other. -/
def Links (fk : ForeignKey) (x y : String) : Prop := (x, y) ∈ fk.fold.pairs ∨ (y, x) ∈ fk.fold.pairs

/-- Foreign keys that link the same columns of the same tables. -/
structure SameLinks (a b : ForeignKey) : Prop where
  tables : (a.fold.table = b.fold.table ∧ a.fold.referencedTable = b.fold.referencedTable) ∨
    (a.fold.table = b.fold.referencedTable ∧ a.fold.referencedTable = b.fold.table)
  links : ∀ x y, a.Links x y ↔ b.Links x y

end ForeignKey

theorem exchanged_ofJoin (j : Join) (s : Side) :
    (ForeignKey.ofJoin j s).exchanged = ForeignKey.ofJoin j s.opposite := by
  simp [ForeignKey.exchanged, ForeignKey.ofJoin]

theorem mem_pairs_ofJoin {j : Join} {s : Side} {x y : String} :
    (x, y) ∈ (ForeignKey.ofJoin j s).fold.pairs ↔
      ∃ p ∈ j.condition.pairs, foldName (p.get s) = x ∧ foldName (p.get s.opposite) = y := by
  have hpairs : (ForeignKey.ofJoin j s).fold.pairs =
      j.condition.pairs.map fun p => (foldName (p.get s), foldName (p.get s.opposite)) := by
    simp [ForeignKey.pairs, ForeignKey.fold, ForeignKey.ofJoin, Join.columns, Condition.columns,
      List.zip_map', Function.comp_def]
  rw [hpairs]
  simp

/-! ### Joins written from the same side or from opposite ones -/

/-- The side itself, or the other one. -/
def Side.turn (turned : Bool) (s : Side) : Side := if turned then s.opposite else s

@[simp] theorem Side.turn_turn (turned : Bool) (s : Side) : (s.turn turned).turn turned = s := by
  cases turned <;> simp [turn]

@[simp] theorem Side.opposite_turn (turned : Bool) (s : Side) :
    (s.turn turned).opposite = s.opposite.turn turned := by
  cases turned <;> rfl

theorem Side.eq_turn_or (turned : Bool) (s t : Side) :
    t = s.turn turned ∨ t = (s.turn turned).opposite := by
  cases turned <;> cases s <;> cases t <;> simp [turn, opposite]

/-- A join that has the tables and the pairs of another, side by side or turned round. -/
structure Join.Aligned (turned : Bool) (j k : Join) : Prop where
  entities : ∀ s, foldName (j.entity s) = foldName (k.entity (s.turn turned))
  pairs : ∀ p ∈ j.condition.pairs, ∃ q ∈ k.condition.pairs,
    ∀ s, foldName (p.get s) = foldName (q.get (s.turn turned))
  pairs' : ∀ q ∈ k.condition.pairs, ∃ p ∈ j.condition.pairs,
    ∀ s, foldName (p.get s) = foldName (q.get (s.turn turned))

/-- A pair of a join is a pair of every join with its signature, as it is or turned round. -/
theorem exists_turned_pair {j k : Join} (hj : j.Legible) (hk : k.Legible)
    (h : j.signature = k.signature) {p : ColumnPair} (hp : p ∈ j.condition.pairs) :
    ∃ q ∈ k.condition.pairs, ∃ turned, ∀ s,
      foldName (j.entity s) = foldName (k.entity (s.turn turned)) ∧
        foldName (p.get s) = foldName (q.get (s.turn turned)) := by
  obtain ⟨q, hq, hends⟩ := Join.exists_ends_of_signature_eq hj hk h hp
  refine ⟨q, hq, ?_⟩
  rcases Join.pair_of_ends_eq hends with ⟨hleft, hright, hp, hp'⟩ | ⟨hleft, hright, hp, hp'⟩
  · refine ⟨false, fun s => ?_⟩
    cases s
    · exact ⟨hleft, hp⟩
    · exact ⟨hright, hp'⟩
  · refine ⟨true, fun s => ?_⟩
    cases s
    · exact ⟨hleft, hp⟩
    · exact ⟨hright, hp'⟩

/-- Between different tables there is one way only in which the sides correspond. -/
theorem exists_aligned {j k : Join} (hj : j.Legible) (hk : k.Legible)
    (h : j.signature = k.signature)
    (hne : foldName (j.entity .left) ≠ foldName (j.entity .right)) :
    ∃ turned, j.Aligned turned k := by
  obtain ⟨p₀, hp₀⟩ := List.exists_mem_of_ne_nil _ hj.paired
  obtain ⟨q₀, _, turned, hturned⟩ := exists_turned_pair hj hk h hp₀
  have hunique : ∀ other,
      (∀ s, foldName (j.entity s) = foldName (k.entity (s.turn other))) → other = turned := by
    intro other hother
    by_contra hdiffer
    have hopposite : ∀ s, Side.turn other s = (Side.turn turned s).opposite := by
      intro s
      cases other <;> cases turned
      · exact absurd rfl hdiffer
      · exact (Side.opposite_opposite s).symm
      · rfl
      · exact absurd rfl hdiffer
    apply hne
    rw [(hturned .left).1, hother .right, hopposite, Side.opposite_turn]
    rfl
  refine ⟨turned, fun s => (hturned s).1, fun p hp => ?_, fun q hq => ?_⟩
  · obtain ⟨q, hq, other, hother⟩ := exists_turned_pair hj hk h hp
    obtain rfl := hunique other fun s => (hother s).1
    exact ⟨q, hq, fun s => (hother s).2⟩
  · obtain ⟨p, hp, other, hother⟩ := exists_turned_pair hk hj h.symm hq
    have hback : ∀ s, foldName (j.entity s) = foldName (k.entity (s.turn other)) := by
      intro s
      rw [(hother (s.turn other)).1, Side.turn_turn]
    obtain rfl := hunique other hback
    refine ⟨p, hp, fun s => ?_⟩
    rw [(hother (s.turn other)).2, Side.turn_turn]

/-- The foreign keys of aligned joins agree where they start from corresponding sides. -/
theorem Join.Aligned.agrees {turned : Bool} {j k : Join} (h : j.Aligned turned k) (s : Side) :
    (ForeignKey.ofJoin j s).Agrees (ForeignKey.ofJoin k (s.turn turned)) where
  table := h.entities s
  referencedTable := by
    change foldName (j.entity s.opposite) = foldName (k.entity (s.turn turned).opposite)
    rw [Side.opposite_turn]
    exact h.entities s.opposite
  pairs := by
    rintro ⟨x, y⟩
    rw [mem_pairs_ofJoin, mem_pairs_ofJoin, Side.opposite_turn]
    constructor
    · rintro ⟨p, hp, rfl, rfl⟩
      obtain ⟨q, hq, hpq⟩ := h.pairs p hp
      exact ⟨q, hq, (hpq s).symm, (hpq s.opposite).symm⟩
    · rintro ⟨q, hq, rfl, rfl⟩
      obtain ⟨p, hp, hpq⟩ := h.pairs' q hq
      exact ⟨p, hp, hpq s, hpq s.opposite⟩

theorem ForeignKey.Links.symm {fk : ForeignKey} {x y : String} (h : fk.Links x y) :
    fk.Links y x := Or.symm h

theorem links_of_signature_eq {j k : Join} (hj : j.Legible) (hk : k.Legible)
    (h : j.signature = k.signature) (s t : Side) {x y : String}
    (hlinks : (ForeignKey.ofJoin j s).Links x y) : (ForeignKey.ofJoin k t).Links x y := by
  have hmem : ∀ {x y : String}, (x, y) ∈ (ForeignKey.ofJoin j s).fold.pairs →
      (ForeignKey.ofJoin k t).Links x y := by
    intro x y hpair
    obtain ⟨p, hp, rfl, rfl⟩ := mem_pairs_ofJoin.1 hpair
    obtain ⟨q, hq, turned, hturned⟩ := exists_turned_pair hj hk h hp
    have hown := (hturned s).2
    have hother := (hturned s.opposite).2
    rw [← Side.opposite_turn] at hother
    rcases Side.eq_turn_or turned s t with rfl | rfl
    · exact .inl (mem_pairs_ofJoin.2 ⟨q, hq, hown.symm, hother.symm⟩)
    · refine .inr (mem_pairs_ofJoin.2 ⟨q, hq, hother.symm, ?_⟩)
      rw [Side.opposite_opposite, hown]
  rcases hlinks with hpair | hpair
  · exact hmem hpair
  · exact (hmem hpair).symm

/-- The foreign keys of joins with one signature link the same columns of the same tables. -/
theorem sameLinks_of_signature_eq {j k : Join} (hj : j.Legible) (hk : k.Legible)
    (h : j.signature = k.signature) (s t : Side) :
    (ForeignKey.ofJoin j s).SameLinks (ForeignKey.ofJoin k t) where
  tables := by
    have htables : ∀ turned, (∀ s, foldName (j.entity s) = foldName (k.entity (s.turn turned))) →
        (foldName (j.entity s) = foldName (k.entity t) ∧
            foldName (j.entity s.opposite) = foldName (k.entity t.opposite)) ∨
          (foldName (j.entity s) = foldName (k.entity t.opposite) ∧
            foldName (j.entity s.opposite) = foldName (k.entity t)) := by
      intro turned hturned
      rcases Side.eq_turn_or turned s t with rfl | rfl
      · rw [hturned s, hturned s.opposite, Side.opposite_turn]
        exact .inl ⟨rfl, rfl⟩
      · rw [hturned s, hturned s.opposite, Side.opposite_opposite, Side.opposite_turn]
        exact .inr ⟨rfl, rfl⟩
    rcases Join.entities_of_signature_eq hj hk h with hsame | hopposite
    · exact htables false hsame
    · exact htables true hopposite
  links x y := ⟨links_of_signature_eq hj hk h s t, links_of_signature_eq hk hj h.symm t s⟩

/-! ### Joins that determine the direction alike -/

/-- The side that refers to the other one where the join declares its dependence. -/
def Join.declaredSide (j : Join) : Option Side :=
  j.dependentKey.side?.map fun declared => j.cardinality.manySide?.getD declared.opposite

/-- A side that refers to the other one whichever of them is written on the left: it is declared,
    or it is the only one that is not fully to the primary key. -/
def Join.PointsFrom (m : Model) (j : Join) (s : Side) : Prop :=
  j.declaredSide = some s ∨
    (j.declaredSide = none ∧ j.isFullyToKey m s = .ok false ∧
      j.isFullyToKey m s.opposite = .ok true)

/-- Joins that correspond side by side and determine the direction of their foreign keys alike. -/
def Join.DirectedAlike (m m' : Model) (j k : Join) : Prop :=
  ∃ turned, j.Aligned turned k ∧
    ((∃ s, j.PointsFrom m s ∧ k.PointsFrom m' (s.turn turned)) ∨
      (turned = false ∧ j.declaredSide = none ∧ k.declaredSide = none))

def Model.SameKeys (m m' : Model) : Prop :=
  ∀ key t t', m.tableAt key = some t → m'.tableAt key = some t' → t.foldedKey = t'.foldedKey

theorem referencingSide_of_declared {m : Model} {j : Join} {s : Side}
    (h : j.declaredSide = some s) : j.referencingSide m = .ok s := by
  obtain ⟨declared, hside, rfl⟩ := Option.map_eq_some_iff.1 h
  rw [Join.referencingSide, hside]

theorem dependentKey_of_declaredSide {j : Join} (h : j.declaredSide = none) :
    j.dependentKey = .none := by
  have hside : j.dependentKey.side? = none := Option.map_eq_none_iff.1 h
  cases hdependent : j.dependentKey <;> simp [hdependent, DependentKey.side?] at hside
  rfl

theorem referencingSide_of_pointsFrom {m : Model} {j : Join} {s : Side} (h : j.PointsFrom m s) :
    j.referencingSide m = .ok s := by
  rcases h with hdeclared | ⟨hnone, hown, hother⟩
  · exact referencingSide_of_declared hdeclared
  · rw [Join.referencingSide, dependentKey_of_declaredSide hnone]
    change (j.isFullyToKey m .right).map _ = _
    cases s with
    | left =>
      change j.isFullyToKey m .right = _ at hother
      rw [hother]
      rfl
    | right =>
      rw [hown]
      rfl

theorem exists_referencingSide {m : Model} {j : Join}
    (h : ∀ s, (m.tableAt (foldName (j.entity s))).isSome = true) :
    ∃ s, j.referencingSide m = .ok s := by
  cases hside : j.declaredSide with
  | some s => exact ⟨s, referencingSide_of_declared hside⟩
  | none => exact ⟨_, referencingSide_of_none (dependentKey_of_declaredSide hside) (h .right)⟩

theorem areKeyColumns_iff {m : Model} {table : String} {columns : List String} {t : Table}
    (ht : m.tableAt (foldName table) = some t) :
    m.areKeyColumns table columns = true ↔ ∀ name ∈ columns, foldName name ∈ t.foldedKey := by
  rw [Model.areKeyColumns, Model.findTable?_eq, ht]
  simp only [Option.any_some, List.all_eq_true, Table.isKeyColumn, namedIn_iff, Table.foldedKey]

theorem Join.mem_columns {j : Join} {s : Side} {name : String} :
    name ∈ j.columns s ↔ ∃ p ∈ j.condition.pairs, p.get s = name := List.mem_map

section Direction

variable {m m' : Model} {j k : Join} {turned : Bool} (hkeys : m.SameKeys m')
  (hj : ∀ s, (m.tableAt (foldName (j.entity s))).isSome = true)
  (hk : ∀ s, (m'.tableAt (foldName (k.entity s))).isSome = true)

include hkeys hj hk

/-- Corresponding sides are fully to the primary key together. -/
theorem areKeyColumns_aligned (h : j.Aligned turned k) (s : Side) :
    m.areKeyColumns (j.entity s) (j.columns s) =
      m'.areKeyColumns (k.entity (s.turn turned)) (k.columns (s.turn turned)) := by
  obtain ⟨t, ht⟩ := Option.isSome_iff_exists.1 (hj s)
  obtain ⟨t', ht'⟩ := Option.isSome_iff_exists.1 (hk (s.turn turned))
  have hsame : t.foldedKey = t'.foldedKey := by
    refine hkeys _ t t' ht ?_
    rw [h.entities s]
    exact ht'
  rw [Bool.eq_iff_iff, areKeyColumns_iff ht, areKeyColumns_iff ht', hsame]
  constructor
  · intro hall name hname
    obtain ⟨q, hq, rfl⟩ := Join.mem_columns.1 hname
    obtain ⟨p, hp, hpq⟩ := h.pairs' q hq
    rw [← hpq s]
    exact hall _ (Join.mem_columns.2 ⟨p, hp, rfl⟩)
  · intro hall name hname
    obtain ⟨p, hp, rfl⟩ := Join.mem_columns.1 hname
    obtain ⟨q, hq, hpq⟩ := h.pairs p hp
    rw [hpq s]
    exact hall _ (Join.mem_columns.2 ⟨q, hq, rfl⟩)

/-- **The foreign keys of joins that determine the direction alike agree.** -/
theorem agrees_of_directedAlike (h : j.DirectedAlike m m' k) {s t : Side}
    (hs : j.referencingSide m = .ok s) (ht : k.referencingSide m' = .ok t) :
    (ForeignKey.ofJoin j s).Agrees (ForeignKey.ofJoin k t) := by
  obtain ⟨turned, haligned, hdirected⟩ := h
  suffices hcorrespond : t = s.turn turned by
    rw [hcorrespond]
    exact haligned.agrees s
  rcases hdirected with ⟨side, hside, hside'⟩ | ⟨rfl, hnone, hnone'⟩
  · rw [referencingSide_of_pointsFrom hside] at hs
    rw [referencingSide_of_pointsFrom hside'] at ht
    rw [← Except.ok.inj hs, ← Except.ok.inj ht]
  · have hfull := areKeyColumns_aligned hkeys hj hk haligned .right
    rw [referencingSide_of_none (dependentKey_of_declaredSide hnone) (hj .right), hfull] at hs
    rw [referencingSide_of_none (dependentKey_of_declaredSide hnone') (hk .right)] at ht
    exact Except.ok.inj (ht.symm.trans hs)

end Direction

/-! ### What an empty plan says about its models -/

/-- The foreign key that a join stands for in a model. -/
def Join.foreignKey (j : Join) (m : Model) : Except SchemaError ForeignKey :=
  (j.referencingSide m).map (ForeignKey.ofJoin j)

/-- Joins of two models whose foreign keys link the same columns of the same tables, in the same
    direction where it is determined alike. -/
structure Join.Corresponds (m m' : Model) (j k : Join) (a b : ForeignKey) : Prop where
  foreignKey : j.foreignKey m = .ok a
  foreignKey' : k.foreignKey m' = .ok b
  sameLinks : a.SameLinks b
  /-- Between different tables they agree as a whole, perhaps with their ends exchanged. -/
  agrees_or : a.fold.table ≠ a.fold.referencedTable → a.Agrees b ∨ a.Agrees b.exchanged
  agrees : j.DirectedAlike m m' k → a.Agrees b

theorem exists_corresponds {m m' : Model} {j k : Join} (hj : j.Legible) (hk : k.Legible)
    (h : j.signature = k.signature) (hkeys : m.SameKeys m')
    (hcomplete : ∀ s, (m.tableAt (foldName (j.entity s))).isSome = true)
    (hcomplete' : ∀ s, (m'.tableAt (foldName (k.entity s))).isSome = true) :
    ∃ a b, j.Corresponds m m' k a b := by
  obtain ⟨s, hs⟩ := exists_referencingSide hcomplete
  obtain ⟨t, ht⟩ := exists_referencingSide hcomplete'
  refine ⟨ForeignKey.ofJoin j s, ForeignKey.ofJoin k t, ?_, ?_,
    sameLinks_of_signature_eq hj hk h s t, fun hne => ?_,
    fun halike => agrees_of_directedAlike hkeys hcomplete hcomplete' halike hs ht⟩
  · rw [Join.foreignKey, hs]
    rfl
  · rw [Join.foreignKey, ht]
    rfl
  · have hdiffer : foldName (j.entity .left) ≠ foldName (j.entity .right) := by
      cases s with
      | left => exact hne
      | right => exact hne.symm
    obtain ⟨turned, haligned⟩ := exists_aligned hj hk h hdiffer
    have hagrees := haligned.agrees s
    rcases Side.eq_turn_or turned s t with rfl | rfl
    · exact .inl hagrees
    · refine .inr ?_
      rwa [exchanged_ofJoin, Side.opposite_opposite]

section Empty

variable {original imported : Model} {p : Plan} (hplan : plan {} original imported = .ok p)
  (hempty : p.tokens = []) (hunambiguous : p.ambiguous = [])

include hplan hempty

theorem changes_of_empty_plan :
    slotChanges {} original imported = [] ∧ joinChanges {} original imported = .ok [] := by
  obtain ⟨ofJoins, hofJoins, hperm⟩ := Plan.perm_changes hplan
  rw [Plan.changes, hempty] at hperm
  obtain ⟨hslots, rfl⟩ := List.append_eq_nil_iff.1 hperm.symm.eq_nil
  exact ⟨hslots, hofJoins⟩

theorem perm_signatures_of_empty_plan :
    (original.joins.map Join.signature).Perm (imported.joins.map Join.signature) := by
  have hscope : ({} : PlanOptions).inclusion.IsScope fun _ => true := Inclusion.isScope_all
  have hall : ∀ m : Model, m.signaturesIn (fun _ => true) = m.joins.map Join.signature := by
    intro m
    rw [← Inclusion.isScope_all.map_signature_joinsIn, Model.joinsIn_all]
  obtain ⟨kept, hstart, hgoal⟩ := exists_kept_signatures hscope original imported .toDatabase
  have hmoves := joinMoves_read rfl (changes_of_empty_plan hplan hempty).2 .toDatabase
  rw [← hmoves.dropped] at hstart
  rw [← hmoves.added] at hgoal
  change (imported.signaturesIn _).Perm kept at hstart
  change (original.signaturesIn _).Perm (kept ++ []) at hgoal
  rw [hall] at hstart
  rw [hall, List.append_nil] at hgoal
  exact hgoal.trans hstart.symm

include hunambiguous in
theorem sameKeys_of_empty_plan : original.SameKeys imported := by
  intro key t t' ht ht'
  have hscope : ({} : PlanOptions).inclusion.IsScope fun _ => true := Inclusion.isScope_all
  rw [ambiguous_of_plan hplan] at hunambiguous
  obtain ⟨htables, -⟩ := ambiguousKeys_eq_nil.1 hunambiguous
  obtain ⟨horiginal, himported⟩ := nodup_keys_of_unambiguous htables
  rw [Model.tablesIn_all] at horiginal himported
  have hchanges := filter_isAt_slotChanges hscope horiginal himported key
  rw [(changes_of_empty_plan hplan hempty).1, ht, ht'] at hchanges
  have hkey : keyChanges {} t t' = [] := (List.append_eq_nil_iff.1 hchanges.symm).2
  by_contra hdiffer
  have hsame : sameNames t.primaryKey t'.primaryKey = false := by
    rw [Bool.eq_false_iff]
    exact fun hsame => hdiffer (sameNames_iff.1 hsame)
  rw [keyChanges, hsame] at hkey
  cases hkey

include hunambiguous in
/-- **Between models with nothing to plan, every join has a join that corresponds to it**, in
    either model. -/
theorem foreignKeys_of_empty_plan (hlegible : ∀ j ∈ original.joins, j.Legible)
    (hlegible' : ∀ k ∈ imported.joins, k.Legible) :
    (∀ j ∈ original.joins, ∃ k ∈ imported.joins, ∃ a b,
        j.Corresponds original imported k a b) ∧
      ∀ k ∈ imported.joins, ∃ j ∈ original.joins, ∃ a b,
        j.Corresponds original imported k a b := by
  obtain ⟨hcomplete, hcomplete', -⟩ := plan_eq_ok.1 hplan
  rw [Model.validateJoins_eq_ok] at hcomplete hcomplete'
  have hsignatures := perm_signatures_of_empty_plan hplan hempty
  have hpaired : ∀ j ∈ original.joins, ∀ k ∈ imported.joins, j.signature = k.signature →
      ∃ a b, j.Corresponds original imported k a b :=
    fun j hj k hk h => exists_corresponds (hlegible j hj) (hlegible' k hk) h
      (sameKeys_of_empty_plan hplan hempty hunambiguous) (hcomplete j hj) (hcomplete' k hk)
  constructor
  · intro j hj
    obtain ⟨k, hk, h⟩ := List.mem_map.1 (hsignatures.subset (List.mem_map_of_mem hj))
    exact ⟨k, hk, hpaired j hj k hk h.symm⟩
  · intro k hk
    obtain ⟨j, hj, h⟩ := List.mem_map.1 (hsignatures.symm.subset (List.mem_map_of_mem hk))
    exact ⟨j, hj, hpaired j hj k hk h⟩

end Empty

/-- Two tables with a join between them, once of either side and in either spelling, and a join of
    a table with itself. -/
def shopModel : Model where
  tables :=
    [{ name := "CUSTOMER"
       columns := [⟨"ID", .integer, false, true⟩, ⟨"REFERRER_ID", .integer, true, false⟩]
       primaryKey := ["ID"] },
     { name := "PURCHASE"
       columns := [⟨"ID", .integer, false, true⟩, ⟨"CUSTOMER_ID", .integer, true, false⟩]
       primaryKey := ["ID"] }]
  joins :=
    [{ entities := ⟨"PURCHASE", "CUSTOMER"⟩
       names := ⟨some "customer", none⟩
       cardinality := .manyToOne
       dependentKey := .none
       condition := .single ⟨"CUSTOMER_ID", "ID"⟩ },
     { entities := ⟨"CUSTOMER", "CUSTOMER"⟩
       names := ⟨some "referrer", none⟩
       cardinality := .manyToOne
       dependentKey := .none
       condition := .single ⟨"REFERRER_ID", "ID"⟩ }]

@[inherit_doc shopModel]
def shopImport : Model where
  tables :=
    [{ name := "customer"
       columns := [⟨"id", .integer, false, true⟩, ⟨"referrer_id", .integer, true, false⟩]
       primaryKey := ["id"] },
     { name := "purchase"
       columns := [⟨"id", .integer, false, true⟩, ⟨"customer_id", .integer, true, false⟩]
       primaryKey := ["id"] }]
  joins :=
    [{ entities := ⟨"customer", "customer"⟩
       names := ⟨none, none⟩
       cardinality := .oneToMany
       dependentKey := .none
       condition := .single ⟨"id", "referrer_id"⟩ },
     { entities := ⟨"customer", "purchase"⟩
       names := ⟨none, none⟩
       cardinality := .oneToMany
       dependentKey := .none
       condition := .single ⟨"id", "customer_id"⟩ }]

theorem shopModel_wellFormed : shopModel.WellFormed := by decide +kernel

theorem shopImport_wellFormed : shopImport.WellFormed := by decide +kernel

theorem foreignKeys_shop :
    (∀ j ∈ shopModel.joins, ∃ k ∈ shopImport.joins, ∃ a b,
        j.Corresponds shopModel shopImport k a b) ∧
      ∀ k ∈ shopImport.joins, ∃ j ∈ shopModel.joins, ∃ a b,
        j.Corresponds shopModel shopImport k a b := by
  have hplan : plan {} shopModel shopImport = .ok {} := by decide +kernel
  exact foreignKeys_of_empty_plan hplan rfl rfl (fun _ => shopModel_wellFormed.legible)
    fun _ => shopImport_wellFormed.legible

/-! ### Foreign keys that no plan tells apart -/

/-- Whether every join of either model has a join of the other with the same foreign key. -/
def Model.SameForeignKeys (m m' : Model) : Prop :=
  (∀ j ∈ m.joins, ∃ k ∈ m'.joins, ∃ a b,
      j.foreignKey m = .ok a ∧ k.foreignKey m' = .ok b ∧ a.Agrees b) ∧
    ∀ k ∈ m'.joins, ∃ j ∈ m.joins, ∃ a b,
      j.foreignKey m = .ok a ∧ k.foreignKey m' = .ok b ∧ a.Agrees b

theorem not_sameForeignKeys {m m' : Model} {j : Join} (hj : j ∈ m.joins)
    (hdiffer : ∀ k ∈ m'.joins,
      (j.foreignKey m).map (·.fold.table) ≠ (k.foreignKey m').map (·.fold.table)) :
    ¬ m.SameForeignKeys m' := by
  rintro ⟨hsame, -⟩
  obtain ⟨k, hk, a, b, ha, hb, hagrees⟩ := hsame j hj
  apply hdiffer k hk
  rw [ha, hb]
  exact congrArg Except.ok hagrees.table

/-- A join of two primary keys. -/
def sharedKeys (dependentKey : DependentKey) : Model where
  tables :=
    [{ name := "PERSON", columns := [⟨"ID", .integer, false, true⟩], primaryKey := ["ID"] },
     { name := "PASSPORT", columns := [⟨"ID", .integer, false, true⟩], primaryKey := ["ID"] }]
  joins :=
    [{ entities := ⟨"PERSON", "PASSPORT"⟩
       names := ⟨none, none⟩
       cardinality := .oneToOne
       dependentKey
       condition := .single ⟨"ID", "ID"⟩ }]

/-- A join of one of two tables whose names and columns run together. -/
def runTogether (table : String) (condition : Condition) : Model where
  tables :=
    [{ name := "SHOP", columns := [⟨"ITEM.ID", .integer, true, false⟩] },
     { name := "SHOP.ITEM", columns := [⟨"ID", .integer, true, false⟩] },
     { name := "STOCK", columns := [⟨"ID", .integer, false, true⟩], primaryKey := ["ID"] }]
  joins :=
    [{ entities := ⟨table, "STOCK"⟩
       names := ⟨none, none⟩
       cardinality := .manyToOne
       dependentKey := .none
       condition }]

/-- There is nothing to plan between models whose foreign keys differ in their direction, or in
    their tables where the names hold separators or there are no columns. -/
theorem plan_sharedKeys :
    ((sharedKeys .left).WellFormed ∧ (sharedKeys .right).WellFormed ∧
      plan {} (sharedKeys .left) (sharedKeys .right) = .ok {} ∧
      ¬ (sharedKeys .left).SameForeignKeys (sharedKeys .right)) ∧
    (plan {} (runTogether "SHOP" (.single ⟨"ITEM.ID", "ID"⟩))
        (runTogether "SHOP.ITEM" (.single ⟨"ID", "ID"⟩)) = .ok {} ∧
      ¬ (runTogether "SHOP" (.single ⟨"ITEM.ID", "ID"⟩)).SameForeignKeys
        (runTogether "SHOP.ITEM" (.single ⟨"ID", "ID"⟩))) ∧
    plan {} (runTogether "SHOP" (.composite [])) (runTogether "SHOP.ITEM" (.composite [])) =
      .ok {} ∧
    ¬ (runTogether "SHOP" (.composite [])).SameForeignKeys
      (runTogether "SHOP.ITEM" (.composite [])) :=
  ⟨⟨by decide +kernel, by decide +kernel, by decide +kernel,
      not_sameForeignKeys List.mem_cons_self (by decide +kernel)⟩,
    ⟨by decide +kernel, not_sameForeignKeys List.mem_cons_self (by decide +kernel)⟩,
    by decide +kernel, not_sameForeignKeys List.mem_cons_self (by decide +kernel)⟩

end SchemaDrift
