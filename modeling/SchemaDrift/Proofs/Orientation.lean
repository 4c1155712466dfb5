/-
  SchemaDrift/Proofs/Orientation.lean
  ===================================
  **Which joins of foreign keys are in canonical orientation.**

  The join of a foreign key is put into canonical orientation while its tables are spelled
  as the foreign key spells them, and gets the spelling of the model afterwards.  The order
  of table names is the order of their code points, in which `Painting` comes before
  `artist` and behind `ARTIST`.  So a foreign key whose tables stand in one order as it
  spells them and in the other as the model does gives a join that is written the wrong way
  round (`needsSwap_of_loaded`), and nobody turns it again: naming the endpoints of a model
  leaves every join as it stands (`map_isNormalized_nameJoins`).

  `ForeignKey.isCrossed` says which foreign keys these are.  Main statement:
  `isNormalized_loadForeignKeys`, all joins are in canonical orientation after loading
  exactly if none of the foreign keys that were loaded is crossed.
-/
import SchemaDrift.Proofs.ForeignKey
import SchemaDrift.Proofs.Normalization

namespace SchemaDrift

/-! ### The join of a foreign key -/

theorem ofForeignKey_eq_ok {m : Model} {fk : ForeignKey} {j : Join}
    (h : Join.ofForeignKey m fk = .ok j) :
    ∃ condition, j = (fk.asJoin m condition).normalize := by
  simp only [Join.ofForeignKey, refuse_eq_ok, bind_eq_ok] at h
  obtain ⟨-, h⟩ := h
  -- the two cases differ in the cardinality and the dependent key alone
  cases hcovers : Join.coversKey m fk
  all_goals
    simp only [hcovers, Bool.false_eq_true, if_true, if_false] at h
    obtain ⟨made, hmade, ⟨⟩⟩ := h
    obtain ⟨condition, -, -, rfl⟩ := ofPairs_eq_ok.1 hmade
    refine ⟨condition, ?_⟩
    simp only [ForeignKey.asJoin, hcovers, Bool.false_eq_true, if_true, if_false]

/-- The join that a model gets from a foreign key, if it can be brought in. -/
def ForeignKey.loaded? (m : Model) (fk : ForeignKey) : Option Join :=
  (Join.ofForeignKey m fk).toOption.bind fun j => (j.resolve m).toOption

/-- Whether the two tables of a foreign key stand in one order as the foreign key spells them and
    in the other order as the model does. -/
def ForeignKey.isCrossed (m : Model) (fk : ForeignKey) : Bool :=
  match m.findTable? fk.table, m.findTable? fk.referencedTable with
  | some t, some u =>
    (fk.table < fk.referencedTable && u.name < t.name) ||
      (fk.referencedTable < fk.table && t.name < u.name)
  | _, _ => false

/-- A join without names is written the wrong way round if its right table comes first. -/
theorem needsSwap_of_unnamed {j : Join} (h : ∀ s, j.declaredName? s = none) :
    j.needsSwap = decide (j.entity .right < j.entity .left) := by
  change (if j.entity .left < j.entity .right then false
    else if j.entity .right < j.entity .left then true
    else Join.nameBefore (j.declaredName? .right) (j.declaredName? .left)) = _
  rw [h, h]
  split
  next hlt => rw [decide_eq_false (String.lt_asymm hlt)]
  next =>
    split
    next hlt => rw [decide_eq_true hlt]
    next hlt => rw [decide_eq_false hlt]; rfl

/-- The join of a foreign key is written the wrong way round exactly if the foreign key is
    crossed. -/
theorem needsSwap_of_loaded {m : Model} {fk : ForeignKey} {k : Join} (h : fk.loaded? m = some k) :
    k.needsSwap = fk.isCrossed m := by
  obtain ⟨j, hjoin, hresolve⟩ := Option.bind_eq_some_iff.1 h
  rw [toOption_eq_some] at hjoin hresolve
  obtain ⟨condition, rfl⟩ := ofForeignKey_eq_ok hjoin
  have hresolved := resolvedTo_of_resolve hresolve
  have htables := hresolved.tables
  have hnames : ∀ s, k.declaredName? s = (fk.asJoin m condition).normalize.declaredName? s :=
    fun s => congrArg (·.declaredName? s) hresolved.rest
  rw [Join.normalize, needsSwap_asJoin] at htables hnames
  by_cases hlt : fk.table < fk.referencedTable
  · -- the referencing table comes first, and is the left one
    simp only [hlt, decide_true, if_true] at htables hnames
    obtain ⟨t, ht, hleft⟩ := htables .left
    obtain ⟨u, hu, hright⟩ := htables .right
    change m.findTable? fk.table = some t at ht
    change m.findTable? fk.referencedTable = some u at hu
    rw [needsSwap_of_unnamed fun s => (hnames s).trans (by cases s <;> rfl), hleft, hright,
      ForeignKey.isCrossed, ht, hu]
    simp [hlt, String.lt_asymm hlt]
  · simp only [hlt, decide_false, Bool.false_eq_true, if_false] at htables hnames
    obtain ⟨u, hu, hleft⟩ := htables .left
    obtain ⟨t, ht, hright⟩ := htables .right
    change m.findTable? fk.table = some t at ht
    change m.findTable? fk.referencedTable = some u at hu
    rw [needsSwap_of_unnamed fun s => (hnames s).trans (by cases s <;> rfl), hleft, hright,
      ForeignKey.isCrossed, ht, hu]
    by_cases hgt : fk.referencedTable < fk.table
    · simp [hlt, hgt]
    · -- the two tables are spelled alike, and so are one table of the model
      have heq : fk.table = fk.referencedTable := String.le_antisymm hgt hlt
      have htu : t = u := by
        rw [heq, hu] at ht
        exact (Option.some_inj.1 ht).symm
      simp [hlt, hgt, htu]

/-! ### Loading -/

theorem resolvable_foreignKeys (m : Model) (fks : List ForeignKey) :
    m.resolvable (fks.filterMap fun fk => (Join.ofForeignKey m fk).toOption) =
      fks.filterMap (ForeignKey.loaded? m) :=
  List.filterMap_filterMap

/-- The joins that stood in the model stand in it as before, and those of the foreign keys stand
    as the foreign keys say. -/
theorem map_isNormalized_loadForeignKeys (m : Model) (fks : List ForeignKey) :
    (m.loadForeignKeys fks).model.joins.map Join.isNormalized =
      m.joins.map Join.isNormalized ++
        (fks.filter fun fk => (fk.loaded? m).isSome).map fun fk => !fk.isCrossed m := by
  have hloaded : (fks.filterMap (ForeignKey.loaded? m)).map Join.isNormalized =
      (fks.filter fun fk => (fk.loaded? m).isSome).map fun fk => !fk.isCrossed m := by
    induction fks with
    | nil => rfl
    | cons fk fks ih =>
      cases hfk : fk.loaded? m with
      | none => rw [List.filterMap_cons_none hfk, List.filter_cons_of_neg (by simp [hfk]), ih]
      | some k =>
        rw [List.filterMap_cons_some hfk, List.filter_cons_of_pos (by simp [hfk]), List.map_cons,
          List.map_cons, ih, Join.isNormalized, needsSwap_of_loaded hfk]
  change (nameJoins _ (m.joins ++ m.resolvable _)).map Join.isNormalized = _
  rw [map_isNormalized_nameJoins, List.map_append, resolvable_foreignKeys, hloaded]

/-- **All joins are in canonical orientation after foreign keys have been loaded** into a model
    whose joins are, exactly if none of the foreign keys that made it into the model is crossed. -/
theorem isNormalized_loadForeignKeys {m : Model} (h : ∀ j ∈ m.joins, j.isNormalized = true)
    (fks : List ForeignKey) :
    (∀ j ∈ (m.loadForeignKeys fks).model.joins, j.isNormalized = true) ↔
      ∀ fk ∈ fks, (fk.loaded? m).isSome = true → fk.isCrossed m = false := by
  have hall : ∀ joins : List Join, (∀ j ∈ joins, j.isNormalized = true) ↔
      ∀ b ∈ joins.map Join.isNormalized, b = true := fun joins => by
    simp only [List.forall_mem_map]
  rw [hall, map_isNormalized_loadForeignKeys, List.forall_mem_append]
  simp only [List.forall_mem_map, List.mem_filter, Bool.not_eq_true']
  exact ⟨fun hnew fk hfk hloaded => hnew.2 fk ⟨hfk, hloaded⟩,
    fun hnew => ⟨h, fun fk hfk => hnew fk hfk.1 hfk.2⟩⟩

/-- Tables of paintings and artists, which stand in one order in lower or upper case, and in the
    other as they are spelled here. -/
def paintings : Model where
  tables :=
    [{ name := "artist", columns := [⟨"id", .integer, false, true⟩], primaryKey := ["id"] },
     { name := "Painting"
       columns := [⟨"id", .integer, false, true⟩, ⟨"artist_id", .integer, true, false⟩]
       primaryKey := ["id"] }]

/-- The foreign key of paintings to artists, whose table of artists is spelled in some way. -/
def paintingsTo (artist : String) : ForeignKey := ⟨"Painting", ["artist_id"], artist, ["id"]⟩

/-- The paintings with a join to their artists. -/
def joinedPaintings : Model :=
  { paintings with
    joins :=
      [{ entities := ⟨"Painting", "artist"⟩
         names := ⟨some "painter", some "works"⟩
         cardinality := .manyToOne
         dependentKey := .none
         condition := .single ⟨"artist_id", "id"⟩ }] }

theorem isNormalized_loadForeignKeys_paintings :
    (joinedPaintings.loadForeignKeys
      [paintingsTo "artist", paintingsTo "Artists", paintingsTo "aRTIST"]).model.joins.length = 3 ∧
    ∀ j ∈ (joinedPaintings.loadForeignKeys
      [paintingsTo "artist", paintingsTo "Artists", paintingsTo "aRTIST"]).model.joins,
        j.isNormalized = true :=
  ⟨by decide +kernel,
    (isNormalized_loadForeignKeys (m := joinedPaintings) (by decide +kernel) _).2
      (by decide +kernel)⟩

/-- A foreign key with another spelling of its tables gives a join that is written the wrong way
    round. -/
theorem needsSwap_loadForeignKeys_paintings :
    (∀ j ∈ paintings.joins, j.isNormalized = true) ∧
      ∃ j ∈ (paintings.loadForeignKeys [paintingsTo "ARTIST"]).model.joins,
        j.isNormalized = false := by
  decide +kernel

end SchemaDrift
