/-
  SchemaDrift/Proofs/Constraint.lean
  ==================================
  **The constraint of a join: which table holds it, and what it is called.**

  A join and its reverse are one relationship, but not always one constraint.  A declared
  dependence says from either side which table refers to the other, and so does the primary
  key where one side alone is fully to it.  In every other case the rule for the right side
  decides, and the constraint moves to the other table when the join is turned round
  (`referencingSide_reversed`).

  The name of a constraint is made of its table and its columns.  What the columns refer to
  is not in it, and nothing but `_` stands between one column and the next.  Hence there are
  two ways in which constraints of one table come by one name: they have the same columns
  and refer to something else (`ForeignKey.SharesColumns`), or their columns differ and read
  alike when they are put together (`ForeignKey.RunsTogether`), for which some column has to
  have `_` in its name (`exists_underscore`).  Joins with different signatures never have
  the same foreign key (`signature_eq_of_fold_eq`), so there is no third way.  The plan
  takes no precaution: it uses the name of the join that it adds or drops, whatever else
  goes by this name.

  Main statement: `constraintName_eq_iff_clashes`.
-/
import SchemaDrift.Dialect.Basic
import SchemaDrift.Proofs.EmptyPlan
import SchemaDrift.Proofs.Linkage

namespace SchemaDrift

/-! ### Which table holds the constraint -/

theorem declaredSide_reversed (j : Join) :
    j.reversed.declaredSide = j.declaredSide.map Side.opposite := by
  obtain ⟨entities, names, synthesized, cardinality, dependentKey, condition⟩ := j
  cases cardinality <;> cases dependentKey <;> rfl

theorem declaredSide_eq_none {j : Join} : j.declaredSide = none ↔ j.dependentKey = .none := by
  refine ⟨dependentKey_of_declaredSide, fun h => ?_⟩
  rw [Join.declaredSide, h]
  rfl

/-- A declared dependence turns round with the join. -/
theorem referencingSide_reversed_of_declared {m : Model} {j : Join} {s : Side}
    (h : j.declaredSide = some s) : j.reversed.referencingSide m = .ok s.opposite := by
  apply referencingSide_of_declared
  rw [declaredSide_reversed, h]
  rfl

/-- Without one, the rule for the right side asks of the reversed join what the left side of the
    join is. -/
theorem referencingSide_reversed_of_none {m : Model} {j : Join} (h : j.dependentKey = .none)
    (htable : (m.tableAt (foldName (j.entity .left))).isSome = true) :
    j.reversed.referencingSide m =
      .ok (if m.areKeyColumns (j.entity .left) (j.columns .left) then .left else .right) := by
  have hnone : j.reversed.dependentKey = .none := congrArg DependentKey.reverse h
  have hright := referencingSide_of_none (m := m) hnone (by rw [Join.entity_reversed]; exact htable)
  rwa [Join.entity_reversed, columns_reversed] at hright

/-- **When turning a join round leaves its constraint where it is**: exactly if the join declares
    its dependence or one side alone is fully to the primary key.  Then both ways to write the
    join stand for one foreign key, and otherwise for one with its ends exchanged. -/
theorem referencingSide_reversed {m : Model} {j : Join}
    (htables : ∀ s, (m.findTable? (j.entity s)).isSome = true) :
    ∃ (s t : Side) (full : Side → Bool),
      j.referencingSide m = .ok s ∧ j.reversed.referencingSide m = .ok t ∧
      (∀ side, j.isFullyToKey m side = .ok (full side)) ∧
      (t = s.opposite ↔ j.dependentKey ≠ .none ∨ full .left ≠ full .right) ∧
      ForeignKey.ofJoin j.reversed t =
        if t = s.opposite then ForeignKey.ofJoin j s else (ForeignKey.ofJoin j s).exchanged := by
  have htables' : ∀ s, (m.tableAt (foldName (j.entity s))).isSome = true := by
    intro s
    rw [← Model.findTable?_eq]
    exact htables s
  let full (s : Side) : Bool := m.areKeyColumns (j.entity s) (j.columns s)
  obtain ⟨s, t, hs, ht, hturned⟩ : ∃ s t, j.referencingSide m = .ok s ∧
      j.reversed.referencingSide m = .ok t ∧
      (t = s.opposite ↔ j.dependentKey ≠ .none ∨ full .left ≠ full .right) := by
    cases hdeclared : j.declaredSide with
    | some s =>
      have hdependent : j.dependentKey ≠ .none := by
        rw [Ne, ← declaredSide_eq_none, hdeclared]
        exact Option.some_ne_none s
      exact ⟨s, s.opposite, referencingSide_of_declared hdeclared,
        referencingSide_reversed_of_declared hdeclared, iff_of_true rfl (.inl hdependent)⟩
    | none =>
      have hnone : j.dependentKey = .none := declaredSide_eq_none.1 hdeclared
      refine ⟨_, _, referencingSide_of_none hnone (htables' .right),
        referencingSide_reversed_of_none hnone (htables' .left), ?_⟩
      simp only [hnone, ne_eq, not_true_eq_false, false_or]
      change (if full .left then Side.left else .right) =
        (if full .right then Side.left else .right).opposite ↔ _
      cases full .left <;> cases full .right <;> decide
  refine ⟨s, t, full, hs, ht, fun side => isFullyToKey_eq (htables' side), hturned, ?_⟩
  rw [ofJoin_reversed]
  split
  next hopposite => rw [hopposite, Side.opposite_opposite]
  next hsame =>
    obtain rfl : t = s := by cases s <;> cases t <;> first | rfl | exact absurd rfl hsame
    rw [exchanged_ofJoin]

/-- The join of orders and their lines, which is over key columns on both sides. -/
def linesOfOrder : Join := lineOrder.asJoin orderModel (.single ⟨"ID", "ORDER_ID"⟩)

theorem referencingSide_reversed_linesOfOrder :
    (∀ s, (orderModel.findTable? (linesOfOrder.entity s)).isSome = true) ∧
      ∃ s t, linesOfOrder.referencingSide orderModel = .ok s ∧
        linesOfOrder.reversed.referencingSide orderModel = .ok t ∧ t ≠ s.opposite ∧
        ForeignKey.ofJoin linesOfOrder.reversed t =
          (ForeignKey.ofJoin linesOfOrder s).exchanged := by
  have htables : ∀ s, (orderModel.findTable? (linesOfOrder.entity s)).isSome = true := by
    intro s
    cases s <;> decide +kernel
  refine ⟨htables, ?_⟩
  obtain ⟨s, t, full, hs, ht, hfull, hturned, hsame⟩ := referencingSide_reversed htables
  have hkey : ∀ side, full side = true := by
    intro side
    apply Except.ok.inj
    rw [← hfull side]
    cases side <;> decide +kernel
  have hnot : t ≠ s.opposite := by
    rw [Ne, hturned, hkey, hkey]
    decide +kernel
  exact ⟨s, t, hs, ht, hnot, hsame.trans (if_neg hnot)⟩

/-! ### The name of a constraint -/

namespace ForeignKey

/-- The columns as the name of the constraint has them, but for their case. -/
def columnText (fk : ForeignKey) : String := String.intercalate "_" fk.columns

/-- Foreign keys from the same columns, in their order, to something else. -/
structure SharesColumns (a b : ForeignKey) : Prop where
  columns : a.fold.columns = b.fold.columns
  references : a.fold.referencedTable ≠ b.fold.referencedTable ∨
    a.fold.referencedColumns ≠ b.fold.referencedColumns

/-- Foreign keys from different columns that read alike when they are put together. -/
structure RunsTogether (a b : ForeignKey) : Prop where
  columns : a.fold.columns ≠ b.fold.columns
  text : sameName a.columnText b.columnText = true

/-- Foreign keys of one table that cannot both have the constraint that is named after them. -/
structure Clashes (a b : ForeignKey) : Prop where
  table : a.fold.table = b.fold.table
  columns : a.SharesColumns b ∨ a.RunsTogether b

/-- Whether the constraint of a foreign key is the one with a name on a table. -/
def IsCalled (fk : ForeignKey) (table name : String) : Prop :=
  foldName fk.table = foldName table ∧ fk.constraintName = name

variable {a b : ForeignKey}

theorem fold_ext (htable : a.fold.table = b.fold.table) (hcolumns : a.fold.columns = b.fold.columns)
    (hreferencedTable : a.fold.referencedTable = b.fold.referencedTable)
    (hreferencedColumns : a.fold.referencedColumns = b.fold.referencedColumns) :
    a.fold = b.fold := by
  rw [fold, fold, mk.injEq]
  exact ⟨htable, hcolumns, hreferencedTable, hreferencedColumns⟩

theorem constraintName_eq_iff (htable : a.fold.table = b.fold.table) :
    a.constraintName = b.constraintName ↔ foldName a.columnText = foldName b.columnText := by
  have hlower : lowerName a.table = lowerName b.table := lowerName_eq_iff.2 htable
  rw [constraintName, constraintName, hlower, ← lowerName_eq_iff]
  exact String.append_right_inj _

/-- The columns, without regard to case, are put together without regard to case. -/
theorem foldName_columnText (fk : ForeignKey) :
    foldName fk.columnText = String.intercalate "_" fk.fold.columns := by
  rw [columnText, foldName_intercalate]
  rfl

theorem toUpper_eq_underscore (c : Char) : c.toUpper = '_' ↔ c = '_' := by
  refine toUpper_induction (P := fun c d => d = '_' ↔ c = '_') (fun _ => .rfl) ?_ c
  decide

theorem underscore_mem_foldName {name : String} :
    '_' ∈ (foldName name).toList ↔ '_' ∈ name.toList := by
  simp [foldName, toUpper_eq_underscore]

/-- Columns run together only where `_` is in the name of one of them. -/
theorem exists_underscore (ha : a.columns ≠ []) (hb : b.columns ≠ []) (h : a.RunsTogether b) :
    ∃ name ∈ a.columns ++ b.columns, '_' ∈ name.toList := by
  by_contra hnone
  push Not at hnone
  have hsplit : ∀ fk : ForeignKey, fk.columns ≠ [] → fk.columns ⊆ a.columns ++ b.columns →
      (foldName fk.columnText).toList.splitOn '_' = fk.fold.columns.map String.toList := by
    intro fk hne hsubset
    rw [foldName_columnText]
    refine splitOn_intercalate rfl (fun key hkey => ?_) (by simpa [fold] using hne)
    obtain ⟨name, hname, rfl⟩ := List.mem_map.1 hkey
    rw [underscore_mem_foldName]
    exact hnone name (hsubset hname)
  apply h.columns
  refine List.map_injective_iff.2 (fun _ _ => String.toList_injective) ?_
  rw [← hsplit a ha (List.subset_append_left _ _), ← hsplit b hb (List.subset_append_right _ _),
    sameName_iff.1 h.text]

theorem isCalled_of_fold_eq (h : a.fold = b.fold) : a.IsCalled b.table b.constraintName := by
  have htable : a.fold.table = b.fold.table := congrArg table h
  refine ⟨htable, (constraintName_eq_iff htable).2 ?_⟩
  rw [foldName_columnText, foldName_columnText, h]

/-- The constraint of a primary key is never taken for the constraint of a foreign key of its
    table. -/
theorem not_isCalled_keyConstraintName (fk : ForeignKey) (table : String) :
    ¬ fk.IsCalled table (Dialect.keyConstraintName table) := by
  rintro ⟨htable, hname⟩
  have hlength : table.toList.length = fk.table.toList.length := by
    have hfolded := congrArg (·.toList.length) htable
    simpa [foldName] using hfolded.symm
  -- behind as many characters as `fk_` and the table have, one goes on with `_`, the other with `ey`
  have hchar := congrArg (·.toList[fk.table.toList.length + 3]?) hname
  simp [constraintName, Dialect.keyConstraintName, lowerName, ← hlength] at hchar

end ForeignKey

/-! ### Foreign keys of joins with different signatures -/

/-- The links of a join are those between the columns of its foreign key, whichever side holds
    it. -/
theorem mem_links_ofJoin {j : Join} {l : Sym2 (String × String)} (s : Side) :
    l ∈ j.links ↔ ∃ pair ∈ (ForeignKey.ofJoin j s).fold.pairs,
      s(((ForeignKey.ofJoin j s).fold.table, pair.1),
        ((ForeignKey.ofJoin j s).fold.referencedTable, pair.2)) = l := by
  have hlink : ∀ p : ColumnPair,
      j.link p = s((foldName (j.entity s), foldName (p.get s)),
        (foldName (j.entity s.opposite), foldName (p.get s.opposite))) := by
    intro p
    cases s with
    | left => rfl
    | right => exact Sym2.eq_swap
  rw [Join.mem_links]
  constructor
  · rintro ⟨p, hp, rfl⟩
    exact ⟨_, mem_pairs_ofJoin.2 ⟨p, hp, rfl, rfl⟩, (hlink p).symm⟩
  · rintro ⟨⟨x, y⟩, hpair, rfl⟩
    obtain ⟨p, hp, rfl, rfl⟩ := mem_pairs_ofJoin.1 hpair
    exact ⟨p, hp, hlink p⟩

theorem signature_eq_of_fold_eq {j k : Join} {s t : Side}
    (h : (ForeignKey.ofJoin j s).fold = (ForeignKey.ofJoin k t).fold) :
    j.signature = k.signature := by
  apply Join.signature_eq_of_links_eq
  ext l
  rw [mem_links_ofJoin s, mem_links_ofJoin t, h]

theorem foreignKey_eq_ok {m : Model} {j : Join} {fk : ForeignKey} :
    j.foreignKey m = .ok fk ↔ ∃ s, j.referencingSide m = .ok s ∧ ForeignKey.ofJoin j s = fk :=
  map_eq_ok

/-- Constraints of one table that belong to different joins have one name only for one of the two
    reasons. -/
theorem constraintName_eq_iff_of_signature_ne {m m' : Model} {j k : Join} {a b : ForeignKey}
    (ha : j.foreignKey m = .ok a) (hb : k.foreignKey m' = .ok b) (hne : j.signature ≠ k.signature)
    (htable : a.fold.table = b.fold.table) :
    a.constraintName = b.constraintName ↔ a.SharesColumns b ∨ a.RunsTogether b := by
  rw [ForeignKey.constraintName_eq_iff htable]
  constructor
  · intro htext
    by_cases hcolumns : a.fold.columns = b.fold.columns
    · refine .inl ⟨hcolumns, ?_⟩
      by_contra hreferences
      push Not at hreferences
      have hfold : a.fold = b.fold :=
        ForeignKey.fold_ext htable hcolumns hreferences.1 hreferences.2
      obtain ⟨s, -, rfl⟩ := foreignKey_eq_ok.1 ha
      obtain ⟨t, -, rfl⟩ := foreignKey_eq_ok.1 hb
      exact hne (signature_eq_of_fold_eq hfold)
    · exact .inr ⟨hcolumns, sameName_iff.2 htext⟩
  · rintro (hshares | htogether)
    · rw [ForeignKey.foldName_columnText, ForeignKey.foldName_columnText, hshares.columns]
    · exact sameName_iff.1 htogether.text

/-! ### The constraints of a plan -/

theorem isCalled_iff_clashes {m m' : Model} {j k : Join} {a b : ForeignKey}
    (ha : j.foreignKey m = .ok a) (hb : k.foreignKey m' = .ok b) (hne : k.signature ≠ j.signature)
    {table name : String} (hcalled : a.IsCalled table name) :
    b.IsCalled table name ↔ a.Clashes b := by
  obtain ⟨htable, rfl⟩ := hcalled
  have hiff : a.fold.table = b.fold.table →
      (a.constraintName = b.constraintName ↔ a.SharesColumns b ∨ a.RunsTogether b) :=
    constraintName_eq_iff_of_signature_ne ha hb hne.symm
  constructor
  · rintro ⟨htable', hname⟩
    have hsame : a.fold.table = b.fold.table := htable.trans htable'.symm
    exact ⟨hsame, (hiff hsame).1 hname.symm⟩
  · rintro ⟨hsame, hcolumns⟩
    exact ⟨hsame.symm.trans htable, ((hiff hsame).2 hcolumns).symm⟩

/-- The statements of a plan for PostgreSQL, in the order of execution. -/
def Plan.statements (p : Plan) : List Statement := p.changes.flatMap Dialect.postgresChange

/-- A change that is not about a join adds no foreign key, and the constraint that it drops is
    that of a primary key. -/
theorem constraints_of_not_isJoin {c : Change} (h : c.kind.isJoin = false) :
    (∀ fk, .addForeignKey fk ∉ Dialect.postgresChange c) ∧
      ∀ table name, .dropConstraint table name ∈ Dialect.postgresChange c →
        name = Dialect.keyConstraintName table := by
  cases c with
  | addJoin j s => cases h
  | dropJoin j s => cases h
  | setPrimaryKey table old new =>
    rw [Dialect.postgresChange]
    split <;> split <;> simp +contextual
  | _ => simp [Dialect.postgresChange, Dialect.defineTable]

section PlanStatements

variable {options : PlanOptions} {original imported : Model} {p : Plan}
  (hplan : plan options original imported = .ok p)

include hplan

/-- Where the constraints of a plan come from: a join is added from the original, another is
    dropped that the import has, and the rest is no foreign key. -/
theorem change_of_mem_statements {statement : Statement} (h : statement ∈ p.statements) :
    (∃ c : Change, c.kind.isJoin = false ∧ statement ∈ Dialect.postgresChange c) ∨
      (∃ j ∈ original.joins, ∃ a, j.foreignKey original = .ok a ∧ statement = .addForeignKey a) ∨
      ∃ j ∈ imported.joins, ∃ a b : ForeignKey, j.foreignKey imported = .ok a ∧ a.fold = b.fold ∧
        statement = .dropConstraint b.table b.constraintName := by
  obtain ⟨c, hc, hstatement⟩ := List.mem_flatMap.1 h
  obtain ⟨ofJoins, hofJoins, hperm⟩ := Plan.perm_changes hplan
  obtain ⟨drops, adds, hdrops, hadds, rfl⟩ := joinChanges_eq_ok.1 hofJoins
  rcases List.mem_append.1 (hperm.mem_iff.1 hc) with hslot | hjoin
  · exact .inl ⟨c, isJoin_of_mem_slotChanges hslot, hstatement⟩
  · rcases List.mem_append.1 hjoin with hdrop | hadd
    · obtain ⟨j, hj, hdropped⟩ := exists_of_mem_forall₂ hdrops hdrop
      obtain ⟨k, s, hrespelled, hs, rfl⟩ := dropJoinOf_eq_ok.1 hdropped
      have hfold := fold_ofJoin_congr (respell_eq_ok hrespelled) s
      exact .inr (.inr ⟨j, List.mem_of_mem_filter (mem_of_onlyImported hj), _, _,
        foreignKey_eq_ok.2 ⟨s, hs, rfl⟩, hfold.symm, List.mem_singleton.1 hstatement⟩)
    · obtain ⟨j, hj, hadded⟩ := exists_of_mem_forall₂ hadds hadd
      obtain ⟨s, hs, rfl⟩ := addJoinOf_eq_ok.1 hadded
      exact .inr (.inl ⟨j, List.mem_of_mem_filter (mem_of_onlyOriginal (mem_of_joinsToAdd hj)), _,
        foreignKey_eq_ok.2 ⟨s, hs, rfl⟩, List.mem_singleton.1 hstatement⟩)

theorem exists_join_of_addForeignKey {fk : ForeignKey} (h : .addForeignKey fk ∈ p.statements) :
    ∃ j ∈ original.joins, j.foreignKey original = .ok fk := by
  rcases change_of_mem_statements hplan h with
    ⟨c, hc, hstatement⟩ | ⟨j, hj, a, ha, ⟨⟩⟩ | ⟨j, hj, a, b, ha, hfold, ⟨⟩⟩
  · exact absurd hstatement ((constraints_of_not_isJoin hc).1 fk)
  · exact ⟨j, hj, ha⟩

theorem exists_join_of_dropConstraint {table name : String}
    (h : .dropConstraint table name ∈ p.statements) :
    name = Dialect.keyConstraintName table ∨
      ∃ j ∈ imported.joins, ∃ a, j.foreignKey imported = .ok a ∧ a.IsCalled table name := by
  rcases change_of_mem_statements hplan h with
    ⟨c, hc, hstatement⟩ | ⟨j, hj, a, ha, ⟨⟩⟩ | ⟨j, hj, a, b, ha, hfold, ⟨⟩⟩
  · exact .inl ((constraints_of_not_isJoin hc).2 table name hstatement)
  · exact .inr ⟨j, hj, a, ha, ForeignKey.isCalled_of_fold_eq hfold⟩

end PlanStatements

/-- **Constraints of one table that belong to different joins have one name exactly if they clash**:
    if they are over the same columns, or over columns that run together.  A plan adds the
    constraints of joins of the original model, and drops those of joins of the imported one and
    of primary keys, each under its name: it may take another constraint for it where the two
    clash, and nowhere else. -/
theorem constraintName_eq_iff_clashes :
    (∀ (m m' : Model) (j k : Join) (a b : ForeignKey),
      j.foreignKey m = .ok a → k.foreignKey m' = .ok b → j.signature ≠ k.signature →
      foldName a.table = foldName b.table →
        (a.constraintName = b.constraintName ↔ a.SharesColumns b ∨ a.RunsTogether b) ∧
        (a.RunsTogether b → a.columns ≠ [] → b.columns ≠ [] →
          ∃ name ∈ a.columns ++ b.columns, '_' ∈ name.toList)) ∧
    ∀ (options : PlanOptions) (original imported : Model) (p : Plan),
      plan options original imported = .ok p →
        (∀ fk, .addForeignKey fk ∈ p.statements →
          ∃ j ∈ original.joins, j.foreignKey original = .ok fk ∧
            ∀ (m : Model) (k : Join) (b : ForeignKey),
              k.foreignKey m = .ok b → k.signature ≠ j.signature →
              (b.IsCalled fk.table fk.constraintName ↔ fk.Clashes b)) ∧
        ∀ table name, .dropConstraint table name ∈ p.statements →
          (name = Dialect.keyConstraintName table ∧ ∀ fk : ForeignKey, ¬ fk.IsCalled table name) ∨
          ∃ j ∈ imported.joins, ∃ a, j.foreignKey imported = .ok a ∧ a.IsCalled table name ∧
            ∀ (m : Model) (k : Join) (b : ForeignKey),
              k.foreignKey m = .ok b → k.signature ≠ j.signature →
              (b.IsCalled table name ↔ a.Clashes b) := by
  refine ⟨fun m m' j k a b ha hb hne htable => ?_, fun options original imported p hplan => ?_⟩
  · exact ⟨constraintName_eq_iff_of_signature_ne ha hb hne htable,
      fun htogether hcolumns hcolumns' => ForeignKey.exists_underscore hcolumns hcolumns' htogether⟩
  · refine ⟨fun fk hadded => ?_, fun table name hdropped => ?_⟩
    · obtain ⟨j, hj, hfk⟩ := exists_join_of_addForeignKey hplan hadded
      exact ⟨j, hj, hfk, fun m k b hb hne => isCalled_iff_clashes hfk hb hne ⟨rfl, rfl⟩⟩
    · rcases exists_join_of_dropConstraint hplan hdropped with rfl | ⟨j, hj, a, ha, hcalled⟩
      · exact .inl ⟨rfl, fun fk => fk.not_isCalled_keyConstraintName table⟩
      · exact .inr ⟨j, hj, a, ha, hcalled,
          fun m k b hb hne => isCalled_iff_clashes ha hb hne hcalled⟩

/-- A join of loans over columns of the loans and of another table. -/
def loanJoin (table : String) (condition : Condition) : Join where
  entities := ⟨"LOAN", table⟩
  names := ⟨none, none⟩
  cardinality := .manyToOne
  dependentKey := .none
  condition

/-- Loans to a museum or to a patron, which may be for a room, and which somebody keeps. -/
def loanModel : Model where
  tables :=
    [{ name := "LOAN"
       columns :=
         [⟨"ID", .integer, false, true⟩, ⟨"HOLDER_ID", .integer, true, false⟩,
          ⟨"HOLDER", .integer, true, false⟩, ⟨"KEEPER", .integer, true, false⟩]
       primaryKey := ["ID"] },
     { name := "MUSEUM", columns := [⟨"ID", .integer, false, true⟩], primaryKey := ["ID"] },
     { name := "PATRON", columns := [⟨"ID", .integer, false, true⟩], primaryKey := ["ID"] },
     { name := "ROOM"
       columns := [⟨"WING", .integer, false, true⟩, ⟨"NO", .integer, false, true⟩]
       primaryKey := ["WING", "NO"] }]
  joins :=
    [loanJoin "MUSEUM" (.single ⟨"HOLDER_ID", "ID"⟩),
     loanJoin "PATRON" (.single ⟨"HOLDER_ID", "ID"⟩),
     loanJoin "ROOM" (.composite [⟨"HOLDER", "WING"⟩, ⟨"ID", "NO"⟩]),
     loanJoin "PATRON" (.single ⟨"KEEPER", "ID"⟩)]

@[inherit_doc loanModel]
def unjoinedLoans : Model := { loanModel with joins := [] }

theorem constraintName_eq_iff_clashes_loans :
    let museum : ForeignKey := ⟨"LOAN", ["HOLDER_ID"], "MUSEUM", ["ID"]⟩
    let room : ForeignKey := ⟨"LOAN", ["HOLDER", "ID"], "ROOM", ["WING", "NO"]⟩
    museum.constraintName = room.constraintName ∧
      ∃ p, plan {} loanModel unjoinedLoans = .ok p ∧ .addForeignKey museum ∈ p.statements ∧
        ∃ j ∈ loanModel.joins, j.foreignKey loanModel = .ok museum ∧
          ∀ k ∈ loanModel.joins, k.signature ≠ j.signature → ∀ b : ForeignKey,
            k.foreignKey loanModel = .ok b →
              (b.IsCalled museum.table museum.constraintName ↔ museum.Clashes b) := by
  intro museum room
  obtain ⟨hnames, hplans⟩ := constraintName_eq_iff_clashes
  have hmuseum : (loanJoin "MUSEUM" (.single ⟨"HOLDER_ID", "ID"⟩)).foreignKey loanModel =
      .ok museum := by decide +kernel
  have hroom : (loanJoin "ROOM" (.composite [⟨"HOLDER", "WING"⟩, ⟨"ID", "NO"⟩])).foreignKey
      loanModel = .ok room := by decide +kernel
  have htogether : museum.RunsTogether room := ⟨by decide +kernel, by decide +kernel⟩
  refine ⟨(hnames _ _ _ _ _ _ hmuseum hroom (by decide +kernel) rfl).1.2 (.inr htogether), ?_⟩
  have hplanned : (plan {} loanModel unjoinedLoans).map
      (fun p => p.statements.contains (.addForeignKey museum)) = .ok true := by
    decide +kernel
  obtain ⟨p, hp, hmem⟩ := map_eq_ok.1 hplanned
  have hadded : .addForeignKey museum ∈ p.statements := by simpa using hmem
  obtain ⟨j, hj, hfk, hcalled⟩ := (hplans _ _ _ _ hp).1 museum hadded
  exact ⟨p, hp, hadded, j, hj, hfk, fun k _ hne b hb => hcalled loanModel k b hb hne⟩

/-- Three joins of one table, no two alike, whose constraints all have one name: a plan adds the
    constraint three times over, and drops it as often. -/
theorem constraintName_loans :
    loanModel.WellFormed ∧ (loanModel.joins.map Join.signature).Nodup ∧
      (loanModel.joins.map fun j => (j.foreignKey loanModel).map fun fk =>
          (fk.table, fk.constraintName)) =
        [.ok ("LOAN", "fk_loan_holder_id"), .ok ("LOAN", "fk_loan_holder_id"),
         .ok ("LOAN", "fk_loan_holder_id"), .ok ("LOAN", "fk_loan_keeper")] ∧
      (plan {} loanModel unjoinedLoans).map Plan.statements =
        .ok
          [.addForeignKey ⟨"LOAN", ["HOLDER", "ID"], "ROOM", ["WING", "NO"]⟩,
           .addForeignKey ⟨"LOAN", ["HOLDER_ID"], "MUSEUM", ["ID"]⟩,
           .addForeignKey ⟨"LOAN", ["HOLDER_ID"], "PATRON", ["ID"]⟩,
           .addForeignKey ⟨"LOAN", ["KEEPER"], "PATRON", ["ID"]⟩] ∧
      (plan {} unjoinedLoans loanModel).map Plan.statements =
        .ok
          [.dropConstraint "LOAN" "fk_loan_holder_id", .dropConstraint "LOAN" "fk_loan_holder_id",
           .dropConstraint "LOAN" "fk_loan_holder_id", .dropConstraint "LOAN" "fk_loan_keeper"] := by
  refine ⟨?_, ?_, ?_, ?_, ?_⟩ <;> decide +kernel

end SchemaDrift
