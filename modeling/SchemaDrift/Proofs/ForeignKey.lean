/-
  SchemaDrift/Proofs/ForeignKey.lean
  ==================================
  **What becomes of a foreign key that is kept as a join.**

  A join has no direction, so a foreign key that is turned into a join and back has to
  be given one anew, from the cardinality, the dependence and the primary keys.  The
  tables and the columns are those of the foreign key in any case, but its two ends may
  have been exchanged.  `ForeignKey.isKept` says when they are not
  (`throughJoin_eq`).

  The rule for joins without a dependent key looks at the right side only, and which
  side this is depends on the names of the tables.  So a foreign key whose columns are
  a part of the primary key of their table, as in a table of order lines, comes back
  turned round (`throughJoin_lineOrder`).
-/
import SchemaDrift.Proofs.Resolution

namespace SchemaDrift

namespace ForeignKey

/-- The foreign key with folded names. -/
def fold (fk : ForeignKey) : ForeignKey :=
  { table := foldName fk.table
    columns := fk.columns.map foldName
    referencedTable := foldName fk.referencedTable
    referencedColumns := fk.referencedColumns.map foldName }

def exchanged (fk : ForeignKey) : ForeignKey :=
  ⟨fk.referencedTable, fk.referencedColumns, fk.table, fk.columns⟩

/-- A foreign key between columns that a model has. -/
structure FitsIn (fk : ForeignKey) (m : Model) : Prop where
  columns : m.hasColumns fk.table fk.columns = true
  referenced : m.hasColumns fk.referencedTable fk.referencedColumns = true
  arity : fk.columns.length = fk.referencedColumns.length
  nonempty : fk.columns ≠ []

theorem fitsIn_iff {fk : ForeignKey} {m : Model} :
    fk.FitsIn m ↔ m.hasColumns fk.table fk.columns = true ∧
      m.hasColumns fk.referencedTable fk.referencedColumns = true ∧
      fk.columns.length = fk.referencedColumns.length ∧ fk.columns ≠ [] :=
  ⟨fun h => ⟨h.1, h.2, h.3, h.4⟩, fun ⟨h₁, h₂, h₃, h₄⟩ => ⟨h₁, h₂, h₃, h₄⟩⟩

instance (fk : ForeignKey) (m : Model) : Decidable (fk.FitsIn m) :=
  decidable_of_iff _ fitsIn_iff.symm

/-- The foreign key as it comes back from the join that is made of it. -/
def throughJoin (m : Model) (fk : ForeignKey) : Except SchemaError ForeignKey := do
  let join ← Join.ofForeignKey m fk
  let resolved ← join.resolve m
  let referencing ← resolved.referencingSide m
  return ofJoin resolved referencing

end ForeignKey

def Model.areKeyColumns (m : Model) (table : String) (columns : List String) : Bool :=
  (m.findTable? table).any fun t => columns.all t.isKeyColumn

/-- Whether the direction of a foreign key is found again in its join. -/
def ForeignKey.isKept (m : Model) (fk : ForeignKey) : Bool :=
  Join.coversKey m fk ||
    if fk.table < fk.referencedTable then m.areKeyColumns fk.referencedTable fk.referencedColumns
    else !m.areKeyColumns fk.table fk.columns

/-! ### The foreign keys of a join -/

theorem columns_reversed (j : Join) (s : Side) : j.reversed.columns s = j.columns s.opposite := by
  change j.condition.swap.pairs.map _ = j.condition.pairs.map _
  rw [Condition.pairs_swap, List.map_map]
  exact List.map_congr_left fun pair _ => Sides.get_swap pair s

theorem ofJoin_reversed (j : Join) (s : Side) :
    ForeignKey.ofJoin j.reversed s = ForeignKey.ofJoin j s.opposite := by
  simp only [ForeignKey.ofJoin, Join.entity_reversed, columns_reversed]

theorem fold_ofJoin_congr {j k : Join} (h : j.SpelledAs k) (s : Side) :
    (ForeignKey.ofJoin j s).fold = (ForeignKey.ofJoin k s).fold := by
  simp only [ForeignKey.fold, ForeignKey.ofJoin, h.entities, h.columns]

/-! ### The referencing side -/

theorem areKeyColumns_congr {m : Model} {table table' : String} {columns columns' : List String}
    (htable : foldName table = foldName table')
    (hcolumns : columns.map foldName = columns'.map foldName) :
    m.areKeyColumns table columns = m.areKeyColumns table' columns' := by
  have hall : ∀ (t : Table) (names : List String),
      names.all t.isKeyColumn = (names.map foldName).all fun key => t.foldedKey.contains key := by
    intro t names
    rw [List.all_map]
    refine List.all_congr rfl fun name => ?_
    rw [Bool.eq_iff_iff, Table.isKeyColumn, namedIn_iff]
    simp [Table.foldedKey]
  simp only [Model.areKeyColumns, Model.findTable?_eq, htable, hall, hcolumns]

theorem isFullyToKey_eq {m : Model} {j : Join} {s : Side}
    (h : (m.tableAt (foldName (j.entity s))).isSome = true) :
    j.isFullyToKey m s = .ok (m.areKeyColumns (j.entity s) (j.columns s)) := by
  obtain ⟨t, ht⟩ := Option.isSome_iff_exists.1 h
  rw [Join.isFullyToKey, Model.tableOf, Model.areKeyColumns, Model.findTable?_eq, ht]
  rfl

theorem referencingSide_of_none {m : Model} {j : Join} (hnone : j.dependentKey = .none)
    (h : (m.tableAt (foldName (j.entity .right))).isSome = true) :
    j.referencingSide m =
      .ok (if m.areKeyColumns (j.entity .right) (j.columns .right) then .left else .right) := by
  rw [Join.referencingSide, hnone]
  change (j.isFullyToKey m .right).map _ = _
  rw [isFullyToKey_eq h]
  rfl

theorem referencingSide_congr {m : Model} {j k : Join} (h : k.SpelledAs j)
    (hcardinality : k.cardinality = j.cardinality) (hdependent : k.dependentKey = j.dependentKey)
    (htable : (m.tableAt (foldName (j.entity .right))).isSome = true) :
    k.referencingSide m = j.referencingSide m := by
  cases hside : j.dependentKey.side? with
  | some declared =>
    rw [Join.referencingSide, Join.referencingSide, hdependent, hcardinality, hside]
  | none =>
    have hnone : j.dependentKey = .none := by
      cases hkey : j.dependentKey <;> simp [hkey, DependentKey.side?] at hside
      rfl
    have htable' : (m.tableAt (foldName (k.entity .right))).isSome = true := by
      rwa [h.entities]
    rw [referencingSide_of_none hnone htable,
      referencingSide_of_none (hdependent.trans hnone) htable',
      areKeyColumns_congr (h.entities .right) (h.columns .right)]

/-! ### The join of a foreign key -/

/-- The join of a foreign key before it is oriented: the referenced table is on the left. -/
def ForeignKey.asJoin (m : Model) (fk : ForeignKey) (condition : Condition) : Join :=
  { entities := ⟨fk.referencedTable, fk.table⟩
    names := ⟨none, none⟩
    cardinality := if Join.coversKey m fk then .oneToOne else .oneToMany
    dependentKey := if Join.coversKey m fk then .left else .none
    condition }

section AsJoin

variable {m : Model} {fk : ForeignKey} {condition : Condition}

theorem needsSwap_asJoin :
    (fk.asJoin m condition).needsSwap = decide (fk.table < fk.referencedTable) := by
  change (if fk.referencedTable < fk.table then false
    else if fk.table < fk.referencedTable then true else Join.nameBefore none none) = _
  split
  next h => rw [decide_eq_false (String.lt_asymm h)]
  next =>
    split
    next h => rw [decide_eq_true h]
    next h => rw [decide_eq_false h]; rfl

variable (hcondition : condition.pairs = List.zipWith Sides.mk fk.referencedColumns fk.columns)
  (hfits : fk.FitsIn m)

include hcondition hfits

theorem columns_asJoin (s : Side) :
    (fk.asJoin m condition).columns s = match s with
      | .left => fk.referencedColumns
      | .right => fk.columns := by
  change condition.pairs.map _ = _
  rw [hcondition, List.map_zipWith]
  cases s with
  | left =>
    refine (List.map_zip_eq_zipWith (f := Prod.fst)).symm.trans ?_
    exact List.map_fst_zip (Nat.le_of_eq hfits.arity.symm)
  | right =>
    refine (List.map_zip_eq_zipWith (f := Prod.snd)).symm.trans ?_
    exact List.map_snd_zip (Nat.le_of_eq hfits.arity)

theorem ofJoin_asJoin_right : ForeignKey.ofJoin (fk.asJoin m condition) .right = fk := by
  rw [ForeignKey.ofJoin, columns_asJoin hcondition hfits, columns_asJoin hcondition hfits]
  rfl

theorem ofJoin_asJoin_left : ForeignKey.ofJoin (fk.asJoin m condition) .left = fk.exchanged := by
  rw [ForeignKey.ofJoin, columns_asJoin hcondition hfits, columns_asJoin hcondition hfits]
  rfl

theorem hasColumns_asJoin (s : Side) :
    m.hasColumns ((fk.asJoin m condition).entity s) ((fk.asJoin m condition).columns s) = true := by
  rw [columns_asJoin hcondition hfits]
  cases s with
  | left => exact hfits.referenced
  | right => exact hfits.columns

/-- Without being turned round, the join finds the direction unless the columns are a part of the
    key of their table. -/
theorem referencingSide_asJoin :
    (fk.asJoin m condition).referencingSide m =
      .ok (if Join.coversKey m fk || !m.areKeyColumns fk.table fk.columns then .right
        else .left) := by
  cases hcovers : Join.coversKey m fk with
  | true => simp [Join.referencingSide, ForeignKey.asJoin, hcovers, DependentKey.side?,
      Cardinality.manySide?, Side.opposite]
  | false =>
    have hnone : (fk.asJoin m condition).dependentKey = .none := by
      simp [ForeignKey.asJoin, hcovers]
    rw [referencingSide_of_none hnone (isSome_of_hasColumns hfits.columns),
      columns_asJoin hcondition hfits]
    change Except.ok (if m.areKeyColumns fk.table fk.columns then Side.left else .right) = _
    cases m.areKeyColumns fk.table fk.columns <;> rfl

/-- Turned round, the join finds the direction where the referenced columns are key columns. -/
theorem referencingSide_asJoin_reversed :
    (fk.asJoin m condition).reversed.referencingSide m =
      .ok (if Join.coversKey m fk || m.areKeyColumns fk.referencedTable fk.referencedColumns then
        .left else .right) := by
  cases hcovers : Join.coversKey m fk with
  | true => simp [Join.referencingSide, Join.reversed, ForeignKey.asJoin, hcovers,
      DependentKey.side?, DependentKey.reverse, Cardinality.manySide?, Cardinality.reverse,
      Side.opposite]
  | false =>
    have hnone : (fk.asJoin m condition).reversed.dependentKey = .none := by
      simp [Join.reversed, ForeignKey.asJoin, hcovers, DependentKey.reverse]
    rw [referencingSide_of_none hnone (isSome_of_hasColumns hfits.referenced), columns_reversed,
      columns_asJoin hcondition hfits]
    rfl

end AsJoin

theorem ofForeignKey_eq {m : Model} {fk : ForeignKey} (hfits : fk.FitsIn m)
    (hnamed : isBlank fk.table = false) (hnamed' : isBlank fk.referencedTable = false) :
    ∃ condition, condition.pairs = List.zipWith Sides.mk fk.referencedColumns fk.columns ∧
      Join.ofForeignKey m fk = .ok (if fk.table < fk.referencedTable then
        (fk.asJoin m condition).reversed else fk.asJoin m condition) := by
  have hne : List.zipWith Sides.mk fk.referencedColumns fk.columns ≠ [] := by
    intro hnil
    rcases List.zipWith_eq_nil_iff.1 hnil with hnone | hnone
    · refine hfits.nonempty (List.eq_nil_of_length_eq_zero ?_)
      rw [hfits.arity, hnone]
      rfl
    · exact hfits.nonempty hnone
  obtain ⟨condition, hcondition⟩ := exists_condition hne
  refine ⟨condition, Condition.pairs_of_ofPairs hcondition, ?_⟩
  have hnormalize : (fk.asJoin m condition).normalize = if fk.table < fk.referencedTable then
      (fk.asJoin m condition).reversed else fk.asJoin m condition := by
    rw [Join.normalize, needsSwap_asJoin]
    simp only [decide_eq_true_eq]
  have hpairs : ∀ cardinality dependentKey,
      Join.ofPairs ⟨fk.referencedTable, fk.table⟩ ⟨none, none⟩ cardinality dependentKey
        (List.zipWith Sides.mk fk.referencedColumns fk.columns) =
      .ok { entities := ⟨fk.referencedTable, fk.table⟩, names := ⟨none, none⟩, cardinality,
            dependentKey, condition } := by
    intro cardinality dependentKey
    exact ofPairs_eq_ok.2 ⟨condition, hcondition, by simp [Sides.toList, hnamed, hnamed'], rfl⟩
  rw [← hnormalize, Join.ofForeignKey, if_neg (not_not.2 hfits.arity)]
  cases hcovers : Join.coversKey m fk with
  | true =>
    simp only [ForeignKey.asJoin, hcovers, if_true, hpairs]
    rfl
  | false =>
    simp only [ForeignKey.asJoin, hcovers, Bool.false_eq_true, if_false, hpairs]
    rfl

/-- What comes back is the foreign key of the join, in the spelling of the model. -/
theorem throughJoin_of_join {m : Model} {fk : ForeignKey} {j : Join} {referencing : Side}
    (hjoin : Join.ofForeignKey m fk = .ok j)
    (hcolumns : ∀ s, m.hasColumns (j.entity s) (j.columns s) = true)
    (hpairs : j.condition.pairs ≠ []) (hside : j.referencingSide m = .ok referencing) :
    ∃ back, fk.throughJoin m = .ok back ∧ back.fold = (ForeignKey.ofJoin j referencing).fold := by
  obtain ⟨k, hresolve, hrespelled⟩ := exists_resolve hcolumns hpairs
  have hside' : k.referencingSide m = .ok referencing := by
    rw [referencingSide_congr hrespelled.spelledAs hrespelled.cardinality hrespelled.dependentKey
      (isSome_of_hasColumns (hcolumns .right)), hside]
  refine ⟨ForeignKey.ofJoin k referencing, ?_,
    fold_ofJoin_congr hrespelled.spelledAs referencing⟩
  simp only [ForeignKey.throughJoin, bind, Except.bind, hjoin, hresolve, hside']
  rfl

/-- **A foreign key comes back from its join as it was or with its ends exchanged**, and
    `ForeignKey.isKept` tells which. -/
theorem throughJoin_eq {m : Model} {fk : ForeignKey} (hfits : fk.FitsIn m)
    (hnamed : isBlank fk.table = false) (hnamed' : isBlank fk.referencedTable = false) :
    ∃ back, fk.throughJoin m = .ok back ∧
      back.fold = if fk.isKept m then fk.fold else fk.exchanged.fold := by
  obtain ⟨condition, hcondition, hjoin⟩ := ofForeignKey_eq hfits hnamed hnamed'
  have hpairs : condition.pairs ≠ [] := by
    intro hnil
    have hcolumns := columns_asJoin hcondition hfits .right
    rw [Join.columns, Condition.columns] at hcolumns
    change condition.pairs.map _ = fk.columns at hcolumns
    rw [hnil, List.map_nil] at hcolumns
    exact hfits.nonempty hcolumns.symm
  by_cases hless : fk.table < fk.referencedTable
  · rw [if_pos hless] at hjoin
    have hcolumns : ∀ s, m.hasColumns ((fk.asJoin m condition).reversed.entity s)
        ((fk.asJoin m condition).reversed.columns s) = true := by
      intro s
      rw [Join.entity_reversed, columns_reversed]
      exact hasColumns_asJoin hcondition hfits s.opposite
    have hpairs' : (fk.asJoin m condition).reversed.condition.pairs ≠ [] := by
      change condition.swap.pairs ≠ []
      rw [Condition.pairs_swap]
      simpa using hpairs
    obtain ⟨back, hback, hfold⟩ := throughJoin_of_join hjoin hcolumns hpairs'
      (referencingSide_asJoin_reversed hcondition hfits)
    refine ⟨back, hback, hfold.trans ?_⟩
    rw [ofJoin_reversed, ForeignKey.isKept, if_pos hless]
    split
    · exact congrArg ForeignKey.fold (ofJoin_asJoin_right hcondition hfits)
    · exact congrArg ForeignKey.fold (ofJoin_asJoin_left hcondition hfits)
  · rw [if_neg hless] at hjoin
    obtain ⟨back, hback, hfold⟩ := throughJoin_of_join hjoin (hasColumns_asJoin hcondition hfits)
      hpairs (referencingSide_asJoin hcondition hfits)
    refine ⟨back, hback, hfold.trans ?_⟩
    rw [ForeignKey.isKept, if_neg hless]
    split
    · rw [ofJoin_asJoin_right hcondition hfits]
    · rw [ofJoin_asJoin_left hcondition hfits]

/-! ### Order lines

The primary key of a table of order lines begins with the order.  The foreign key to the order
then has key columns on both of its ends. -/

/-- Orders, products, and the lines of orders. -/
def orderModel : Model where
  tables :=
    [{ name := "ORDERS", columns := [⟨"ID", .integer, false, true⟩], primaryKey := ["ID"] },
     { name := "PRODUCTS", columns := [⟨"ID", .integer, false, true⟩], primaryKey := ["ID"] },
     { name := "ORDER_LINE"
       columns :=
         [⟨"ORDER_ID", .integer, false, true⟩, ⟨"LINE_NO", .integer, false, true⟩,
          ⟨"PRODUCT_ID", .integer, false, false⟩]
       primaryKey := ["ORDER_ID", "LINE_NO"] }]

def lineOrder : ForeignKey := ⟨"ORDER_LINE", ["ORDER_ID"], "ORDERS", ["ID"]⟩

def lineProduct : ForeignKey := ⟨"order_line", ["product_id"], "products", ["id"]⟩

theorem throughJoin_lineProduct :
    lineProduct.isKept orderModel = true ∧ ∃ back, lineProduct.throughJoin orderModel = .ok back ∧
      back.fold = if lineProduct.isKept orderModel then lineProduct.fold
        else lineProduct.exchanged.fold :=
  ⟨by decide +kernel, throughJoin_eq (by decide +kernel) (by decide +kernel) (by decide +kernel)⟩

/-- A table without a name that holds a tree. -/
def unnamedModel : Model where
  tables :=
    [{ name := " "
       columns := [⟨"ID", .integer, false, true⟩, ⟨"PARENT_ID", .integer, true, false⟩]
       primaryKey := ["ID"] }]

def unnamedParent : ForeignKey := ⟨" ", ["PARENT_ID"], " ", ["ID"]⟩

/-- Foreign keys within a model of which one comes back the other way round and one not at all. -/
theorem throughJoin_lineOrder :
    (lineOrder.FitsIn orderModel ∧ lineOrder.columns.Nodup ∧ lineOrder.referencedColumns.Nodup ∧
      lineOrder.throughJoin orderModel = .ok lineOrder.exchanged ∧
        lineOrder.exchanged.fold ≠ lineOrder.fold) ∧
    unnamedParent.FitsIn unnamedModel ∧
      (unnamedParent.throughJoin unnamedModel).toOption = none := by
  refine ⟨⟨?_, ?_, ?_, ?_, ?_⟩, ?_, ?_⟩ <;> decide +kernel

end SchemaDrift
