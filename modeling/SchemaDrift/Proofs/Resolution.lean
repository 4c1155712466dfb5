/-
  SchemaDrift/Proofs/Resolution.lean
  ==================================
  **Bringing a join into a model changes spellings and nothing else.**

  Both ways of rewriting a join look its tables and columns up by folded name and put down
  what they find, and what this gives is told once for both (`Join.RespelledTo`): the join
  in another spelling, which stays as it is when it is rewritten again.  They differ in what
  they ask for.  A join can be respelled if its tables are named and it has a pair of
  columns (`respell_eq_ok_iff`), and resolves if the model has its tables and its columns
  and it has a pair (`resolve_eq_ok_iff`).  So where both give a join they give the same one.
  Main statement: `resolve_eq_respell`.
-/
import SchemaDrift.Proofs.WellFormed
import SchemaDrift.Resolution

namespace SchemaDrift

/-! ### Joins from pairs -/

theorem ofPairs_eq_ok {entities : Sides String} {names : Sides (Option String)}
    {cardinality : Cardinality} {dependentKey : DependentKey} {pairs : List ColumnPair} {j : Join} :
    Join.ofPairs entities names cardinality dependentKey pairs = .ok j ↔
      ∃ condition, Condition.ofPairs pairs = .ok condition ∧
        entities.toList.any isBlank = false ∧
        j = { entities, names, cardinality, dependentKey, condition } := by
  rw [Join.ofPairs]
  cases Condition.ofPairs pairs with
  | error e => simp [bind, Except.bind]
  | ok condition =>
    change Join.make entities names cardinality dependentKey condition = .ok j ↔ _
    rw [Join.make]
    by_cases hblank : entities.toList.any isBlank = true
    · simp [hblank]
    · simp [hblank, eq_comm]

theorem exists_condition {pairs : List ColumnPair} (h : pairs ≠ []) :
    ∃ condition, Condition.ofPairs pairs = .ok condition := by
  match pairs with
  | [] => exact absurd rfl h
  | [_] => exact ⟨_, rfl⟩
  | _ :: _ :: _ => exact ⟨_, rfl⟩

/-! ### A join in the spelling of a model -/

section Respelled

variable {j k : Join} {m : Model}

theorem findTable?_congr (m : Model) {a b : String} (h : foldName a = foldName b) :
    m.findTable? a = m.findTable? b := by
  rw [Model.findTable?_eq, Model.findTable?_eq, h]

theorem findColumn?_congr (t : Table) {a b : String} (h : foldName a = foldName b) :
    t.findColumn? a = t.findColumn? b := by
  rw [Table.findColumn?_eq, Table.findColumn?_eq, h]

theorem foldName_respellEntity (j : Join) (m : Model) (s : Side) :
    foldName (j.respellEntity m s) = foldName (j.entity s) := by
  rw [Join.respellEntity]
  split
  next t ht =>
    have hkey : t.matchKey = foldName (j.entity s) := keyOf_entryAt ht
    exact hkey
  next => rfl

theorem foldName_respellColumn (j : Join) (m : Model) (s : Side) (column : String) :
    foldName (j.respellColumn m s column) = foldName column := by
  rw [Join.respellColumn]
  split
  next c hc =>
    obtain ⟨t, _, hfound⟩ := Option.bind_eq_some_iff.1 hc
    have hkey : c.matchKey = foldName column := keyOf_entryAt hfound
    exact hkey
  next => rfl

def Join.respelledPairs (j : Join) (m : Model) : List ColumnPair :=
  j.condition.pairs.map fun pair =>
    ⟨j.respellColumn m .left pair.left, j.respellColumn m .right pair.right⟩

theorem map_foldPair_respelledPairs (j : Join) (m : Model) :
    (j.respelledPairs m).map Join.foldPair = j.condition.pairs.map Join.foldPair := by
  rw [Join.respelledPairs, List.map_map]
  apply List.map_congr_left
  intro pair _
  simp only [Function.comp_apply, Join.foldPair, foldName_respellColumn]

/-- A join as a model spells it, its condition made anew from its pairs.  What the model does not
    know keeps its spelling, and nothing but spellings changes. -/
structure Join.RespelledTo (m : Model) (j k : Join) : Prop where
  rest : k = { j with entities := k.entities, condition := k.condition }
  entities : ∀ s, k.entity s = j.respellEntity m s
  condition : Condition.ofPairs (j.respelledPairs m) = .ok k.condition

theorem respelledTo_iff :
    j.RespelledTo m k ↔ ∃ condition, Condition.ofPairs (j.respelledPairs m) = .ok condition ∧
      k = { j with
            entities := ⟨j.respellEntity m .left, j.respellEntity m .right⟩
            condition } := by
  constructor
  · intro h
    have hentities : k.entities = ⟨j.respellEntity m .left, j.respellEntity m .right⟩ :=
      congrArg₂ Sides.mk (h.entities .left) (h.entities .right)
    refine ⟨k.condition, h.condition, ?_⟩
    rw [← hentities]
    exact h.rest
  · rintro ⟨condition, hcondition, rfl⟩
    exact ⟨rfl, fun s => by cases s <;> rfl, hcondition⟩

namespace Join.RespelledTo

theorem cardinality (h : j.RespelledTo m k) : k.cardinality = j.cardinality := by rw [h.rest]

theorem dependentKey (h : j.RespelledTo m k) : k.dependentKey = j.dependentKey := by rw [h.rest]

theorem pairs (h : j.RespelledTo m k) : k.condition.pairs = j.respelledPairs m :=
  Condition.pairs_of_ofPairs h.condition

theorem spelledAs (h : j.RespelledTo m k) : k.SpelledAs j where
  entities s := by rw [h.entities, foldName_respellEntity]
  pairs := by rw [h.pairs, map_foldPair_respelledPairs]

end Join.RespelledTo

/-- A join that is spelled like the model stays as it is. -/
theorem respelledTo_self (hmade : Condition.ofPairs j.condition.pairs = .ok j.condition)
    (hentity : ∀ s, j.respellEntity m s = j.entity s)
    (hcolumn : ∀ s, ∀ pair ∈ j.condition.pairs,
      j.respellColumn m s (pair.get s) = pair.get s) : j.RespelledTo m j := by
  have hpairs : j.respelledPairs m = j.condition.pairs := by
    conv_rhs => rw [← List.map_id j.condition.pairs]
    apply List.map_congr_left
    intro pair hpair
    exact congrArg₂ Sides.mk (hcolumn .left pair hpair) (hcolumn .right pair hpair)
  refine ⟨rfl, fun s => (hentity s).symm, ?_⟩
  rw [hpairs]
  exact hmade

/-- Names are spelled like the model after one time: what is found under a spelling of the model
    is what gave the spelling. -/
theorem Join.RespelledTo.again (h : j.RespelledTo m k) : k.RespelledTo m k := by
  have hfind : ∀ s, m.findTable? (k.entity s) = m.findTable? (j.entity s) :=
    fun s => findTable?_congr m (h.spelledAs.entities s)
  have hcolumn : ∀ s column, k.respellColumn m s (j.respellColumn m s column) =
      j.respellColumn m s column := by
    intro s column
    have hsame : ∀ t : Table,
        t.findColumn? (j.respellColumn m s column) = t.findColumn? column :=
      fun t => findColumn?_congr t (foldName_respellColumn j m s column)
    rw [Join.respellColumn, hfind]
    simp only [hsame]
    rw [Join.respellColumn]
    split <;> rfl
  refine respelledTo_self ?_ (fun s => ?_) fun s pair hpair => ?_
  · rw [h.pairs]
    exact h.condition
  · rw [Join.respellEntity, hfind, h.entities, Join.respellEntity]
    split <;> rfl
  · rw [h.pairs] at hpair
    obtain ⟨old, -, rfl⟩ := List.mem_map.1 hpair
    cases s
    · exact hcolumn .left old.left
    · exact hcolumn .right old.right

/-! ### Respelling -/

theorem respell_eq_map_ofPairs (j : Join) (m : Model) : j.respell m =
    (Join.ofPairs ⟨j.respellEntity m .left, j.respellEntity m .right⟩ j.names j.cardinality
      j.dependentKey (j.respelledPairs m)).map ({ · with synthesized := j.synthesized }) := rfl

theorem any_isBlank_eq_false : j.entities.toList.any isBlank = false ↔
    ∀ s, isBlank (j.entity s) = false := by
  simp only [List.any_eq_false, Bool.not_eq_true]
  exact Sides.forall_mem_toList

theorem any_isBlank_respelled (j : Join) (m : Model) :
    (⟨j.respellEntity m .left, j.respellEntity m .right⟩ : Sides String).toList.any isBlank =
      j.entities.toList.any isBlank := by
  have hside : ∀ s, isBlank (j.respellEntity m s) = isBlank (j.entity s) :=
    fun s => isBlank_congr (foldName_respellEntity j m s)
  simp only [Sides.toList, List.any_cons, hside]
  rfl

/-- Respelling fails for a blank table and for want of pairs, and for no other reason. -/
theorem respell_eq_ok_iff :
    j.respell m = .ok k ↔ (∀ s, isBlank (j.entity s) = false) ∧ j.RespelledTo m k := by
  simp only [respell_eq_map_ofPairs, map_eq_ok, ofPairs_eq_ok, any_isBlank_respelled,
    any_isBlank_eq_false, respelledTo_iff]
  constructor
  · rintro ⟨respelled, ⟨condition, hcondition, hnamed, rfl⟩, rfl⟩
    exact ⟨hnamed, condition, hcondition, rfl⟩
  · rintro ⟨hnamed, condition, hcondition, rfl⟩
    exact ⟨_, ⟨condition, hcondition, hnamed, rfl⟩, rfl⟩

theorem respell_eq_ok (h : j.respell m = .ok k) : k.SpelledAs j :=
  (respell_eq_ok_iff.1 h).2.spelledAs

theorem exists_respelledTo (hpairs : j.condition.pairs ≠ []) (m : Model) :
    ∃ k, j.RespelledTo m k := by
  have hrespelled : j.respelledPairs m ≠ [] := by
    intro hnone
    exact hpairs (List.map_eq_nil_iff.1 hnone)
  obtain ⟨condition, hcondition⟩ := exists_condition hrespelled
  exact ⟨_, respelledTo_iff.2 ⟨condition, hcondition, rfl⟩⟩

theorem exists_respell (hnamed : ∀ s, isBlank (j.entity s) = false)
    (hpairs : j.condition.pairs ≠ []) (m : Model) : ∃ k, j.respell m = .ok k := by
  obtain ⟨k, hk⟩ := exists_respelledTo hpairs m
  exact ⟨k, respell_eq_ok_iff.2 ⟨hnamed, hk⟩⟩

/-- A join as it is made from its pairs, between tables that are named. -/
structure Join.WellMade (j : Join) : Prop where
  named : ∀ s, isBlank (j.entity s) = false
  made : Condition.ofPairs j.condition.pairs = .ok j.condition

instance (j : Join) : Decidable j.WellMade :=
  decidable_of_iff ((∀ s, isBlank (j.entity s) = false) ∧
    Condition.ofPairs j.condition.pairs = .ok j.condition)
    ⟨fun h => ⟨h.1, h.2⟩, fun h => ⟨h.1, h.2⟩⟩

/-- A join that has the names of the tables and columns that the model finds stays as it is. -/
theorem respell_eq_self (hmade : j.WellMade)
    (hentity : ∀ s t, m.findTable? (j.entity s) = some t → t.name = j.entity s)
    (hcolumn : ∀ s t, m.findTable? (j.entity s) = some t → ∀ pair ∈ j.condition.pairs, ∀ c,
      t.findColumn? (pair.get s) = some c → c.name = pair.get s) :
    j.respell m = .ok j := by
  refine respell_eq_ok_iff.2
    ⟨hmade.named, respelledTo_self hmade.made (fun s => ?_) fun s pair hpair => ?_⟩
  · rw [Join.respellEntity]
    split
    next t ht => exact hentity s t ht
    next => rfl
  · rw [Join.respellColumn]
    split
    next c hc =>
      obtain ⟨t, ht, hfound⟩ := Option.bind_eq_some_iff.1 hc
      exact hcolumn s t ht pair hpair c hfound
    next => rfl

end Respelled

/-! ### Resolving -/

def Model.hasColumns (m : Model) (table : String) (columns : List String) : Bool :=
  (m.findTable? table).any fun t => columns.all fun name => (t.findColumn? name).isSome

theorem Model.hasColumns_iff {m : Model} {table : String} {columns : List String} :
    m.hasColumns table columns = true ↔ ∃ t, m.tableAt (foldName table) = some t ∧
      ∀ name ∈ columns, (t.columnAt (foldName name)).isSome = true := by
  rw [hasColumns, findTable?_eq, Option.any_eq_true]
  simp only [List.all_eq_true, Table.findColumn?_eq]

theorem isSome_of_hasColumns {m : Model} {table : String} {columns : List String}
    (h : m.hasColumns table columns = true) : (m.tableAt (foldName table)).isSome = true := by
  obtain ⟨t, ht, -⟩ := Model.hasColumns_iff.1 h
  exact Option.isSome_iff_exists.2 ⟨t, ht⟩

/-- A join whose two tables and all of whose columns are in a model. -/
def Join.ResolvesIn (j : Join) (m : Model) : Prop :=
  ∀ s, m.hasColumns (j.entity s) (j.columns s) = true

instance (j : Join) (m : Model) : Decidable (j.ResolvesIn m) :=
  inferInstanceAs (Decidable (∀ _, _))

section Resolved

variable {j k : Join} {m : Model}

theorem hasColumns_of_spelledAs (h : k.SpelledAs j) (m : Model) (s : Side) :
    m.hasColumns (k.entity s) (k.columns s) = m.hasColumns (j.entity s) (j.columns s) := by
  have hkeys : ∀ (t : Table) (names : List String),
      (names.all fun name => (t.findColumn? name).isSome) =
        (names.map foldName).all fun key => (t.columnAt key).isSome := by
    intro t names
    rw [List.all_map]
    rfl
  simp only [Model.hasColumns, hkeys, h.columns, findTable?_congr m (h.entities s)]

theorem tableOf_eq_ok {s : Side} {t : Table} :
    m.tableOf j s = .ok t ↔ m.findTable? (j.entity s) = some t := by
  rw [Model.tableOf]
  cases m.findTable? (j.entity s) <;> simp

theorem spellColumn_eq_ok {s : Side} {t : Table} (ht : m.findTable? (j.entity s) = some t)
    (name spelled : String) : t.spellColumn name = .ok spelled ↔
      (t.findColumn? name).isSome = true ∧ spelled = j.respellColumn m s name := by
  rw [Table.spellColumn, Join.respellColumn, ht, Option.bind_some]
  cases t.findColumn? name <;> simp [eq_comm]

/-- A side resolves exactly if its table is there with all its columns, and then to what
    respelling makes of it. -/
theorem resolveSide_eq_ok {s : Side} {table : String} {columns : List String} :
    j.resolveSide m s = .ok (table, columns) ↔ m.hasColumns (j.entity s) (j.columns s) = true ∧
      table = j.respellEntity m s ∧ columns = (j.columns s).map (j.respellColumn m s) := by
  have htable : ∀ {t}, m.findTable? (j.entity s) = some t → t.name = j.respellEntity m s := by
    intro t ht
    rw [Join.respellEntity, ht]
  simp only [Join.resolveSide, bind_eq_ok, tableOf_eq_ok, pure_eq_ok, Prod.mk.injEq,
    Model.hasColumns, Option.any_eq_true, List.all_eq_true]
  constructor
  · rintro ⟨t, ht, spelled, hspelled, rfl, rfl⟩
    obtain ⟨hfound, rfl⟩ := (mapM_eq_ok_iff_map (spellColumn_eq_ok ht)).1 hspelled
    exact ⟨⟨t, ht, hfound⟩, htable ht, rfl⟩
  · rintro ⟨⟨t, ht, hfound⟩, rfl, rfl⟩
    exact ⟨t, ht, _, (mapM_eq_ok_iff_map (spellColumn_eq_ok ht)).2 ⟨hfound, rfl⟩, htable ht, rfl⟩

/-- Resolving fails for want of a table, of a column and of pairs, and for no other reason. -/
theorem resolve_eq_ok_iff :
    j.resolve m = .ok k ↔ j.ResolvesIn m ∧ j.RespelledTo m k := by
  have hpairs : List.zipWith Sides.mk ((j.columns .left).map (j.respellColumn m .left))
      ((j.columns .right).map (j.respellColumn m .right)) = j.respelledPairs m := by
    simp only [Join.columns, Condition.columns, List.map_map, List.zipWith_map, List.zipWith_self]
    rfl
  simp only [Join.resolve, bind_eq_ok, Prod.exists, resolveSide_eq_ok, pure_eq_ok,
    respelledTo_iff]
  constructor
  · rintro ⟨_, _, ⟨hleft, rfl, rfl⟩, _, _, ⟨hright, rfl, rfl⟩, condition, hcondition, rfl⟩
    rw [hpairs] at hcondition
    exact ⟨fun s => by cases s <;> assumption, condition, hcondition, rfl⟩
  · rintro ⟨hcolumns, condition, hcondition, rfl⟩
    rw [← hpairs] at hcondition
    exact ⟨_, _, ⟨hcolumns .left, rfl, rfl⟩, _, _, ⟨hcolumns .right, rfl, rfl⟩, condition,
      hcondition, rfl⟩

/-- A join whose tables and columns the model has resolves to the same join in the spelling of
    the model. -/
theorem exists_resolve (h : j.ResolvesIn m) (hpairs : j.condition.pairs ≠ []) :
    ∃ k, j.resolve m = .ok k ∧ j.RespelledTo m k := by
  obtain ⟨k, hk⟩ := exists_respelledTo hpairs m
  exact ⟨k, resolve_eq_ok_iff.2 ⟨h, hk⟩, hk⟩

theorem resolvesIn_of_spelledAs (h : k.SpelledAs j) : k.ResolvesIn m ↔ j.ResolvesIn m :=
  forall_congr' fun s => by rw [hasColumns_of_spelledAs h]

theorem resolve_again (h : j.resolve m = .ok k) : k.resolve m = .ok k := by
  obtain ⟨hresolves, hrespelled⟩ := resolve_eq_ok_iff.1 h
  exact resolve_eq_ok_iff.2
    ⟨(resolvesIn_of_spelledAs hrespelled.spelledAs).2 hresolves, hrespelled.again⟩

/-- What resolving makes of a join: its tables and columns are looked up, side by side and pair by
    pair, and written as they were found.  Nothing else changes. -/
structure Join.ResolvedTo (m : Model) (j k : Join) : Prop where
  rest : k = { j with entities := k.entities, condition := k.condition }
  tables : ∀ s, ∃ t, m.findTable? (j.entity s) = some t ∧ k.entity s = t.name
  columns : List.Forall₂ (fun old new => ∀ s, ∃ t c, m.findTable? (j.entity s) = some t ∧
    t.findColumn? (old.get s) = some c ∧ new.get s = c.name) j.condition.pairs k.condition.pairs

theorem resolvedTo_of_resolve (h : j.resolve m = .ok k) : j.ResolvedTo m k := by
  obtain ⟨hcolumns, hrespelled⟩ := resolve_eq_ok_iff.1 h
  have hfound : ∀ s, ∃ t, m.findTable? (j.entity s) = some t ∧
      ∀ name ∈ j.columns s, (t.findColumn? name).isSome = true :=
    fun s => Model.hasColumns_iff.1 (hcolumns s)
  refine ⟨hrespelled.rest, fun s => ?_, ?_⟩
  · obtain ⟨t, ht, -⟩ := hfound s
    refine ⟨t, ht, ?_⟩
    rw [hrespelled.entities, Join.respellEntity, ht]
  · rw [hrespelled.pairs, Join.respelledPairs]
    refine List.forall₂_map_right_iff.2 (List.forall₂_same.2 fun pair hpair s => ?_)
    obtain ⟨t, ht, hnames⟩ := hfound s
    obtain ⟨c, hc⟩ := Option.isSome_iff_exists.1 (hnames _ (List.mem_map_of_mem hpair))
    have hspelled : j.respellColumn m s (pair.get s) = c.name := by
      rw [Join.respellColumn, ht, Option.bind_some, hc]
    refine ⟨t, c, ht, hc, ?_⟩
    cases s
    · exact hspelled
    · exact hspelled

/-! ### The two ways of rewriting -/

/-- **A join resolves exactly if it can be respelled and the model has all that it names**, and
    then to what it is respelled to.  A join that can be respelled is the same join afterwards, with
    the same sides, and respelling it again has no effect. -/
theorem resolve_eq_respell (j : Join) (m : Model) :
    ((∀ s, isBlank (j.entity s) = false) →
      ∀ k, j.resolve m = .ok k ↔ j.ResolvesIn m ∧ j.respell m = .ok k) ∧
      ∀ k, j.respell m = .ok k →
        k = { j with entities := k.entities, condition := k.condition } ∧ k.SpelledAs j ∧
          k.signature = j.signature ∧ k.respell m = .ok k := by
  constructor
  · intro hnamed k
    rw [resolve_eq_ok_iff, respell_eq_ok_iff]
    exact and_congr_right fun _ => (and_iff_right hnamed).symm
  · intro k hrespell
    obtain ⟨hnamed, hrespelled⟩ := respell_eq_ok_iff.1 hrespell
    have hspelled := hrespelled.spelledAs
    have hnamed' : ∀ s, isBlank (k.entity s) = false := by
      intro s
      rw [isBlank_congr (hspelled.entities s)]
      exact hnamed s
    exact ⟨hrespelled.rest, hspelled, hspelled.signature_eq,
      respell_eq_ok_iff.2 ⟨hnamed', hrespelled.again⟩⟩

end Resolved

end SchemaDrift
