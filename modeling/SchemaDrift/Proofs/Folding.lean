/-
  SchemaDrift/Proofs/Folding.lean
  ===============================
  **A plan does not depend on the case of names.**

  `Model.fold` writes every name of a model in upper case.  Each step of the planner
  gives on folded models what it gives on the models, folded: the tables and columns it
  finds (`findTable?_fold`), the keys it compares, the signatures (`signature_fold`), the
  joins it respells (`respell_fold`) and the errors it stops with.  So models that fold
  to the same get plans that do (`alike_plan`), whether or not their names are unique.

  The keys reported as ambiguous are texts that quote a table in the spelling of the
  original model, and agree after folding only.
-/
import SchemaDrift.Proofs.PlanMoves

namespace SchemaDrift

/-! ### Folding -/

def Column.fold (c : Column) : Column := { c with name := foldName c.name }

def Table.fold (t : Table) : Table :=
  { t with
    name := foldName t.name
    columns := t.columns.map Column.fold
    primaryKey := t.foldedKey }

def Condition.fold : Condition → Condition
  | single pair => single (Join.foldPair pair)
  | composite pairs => composite (pairs.map Join.foldPair)

/-- The join with folded tables and columns.  The names of its relationships are kept. -/
def Join.fold (j : Join) : Join :=
  { j with entities := foldPair j.entities, condition := j.condition.fold }

/-- The tables and joins with folded names, without what is derived from the joins. -/
def Model.fold (m : Model) : Model :=
  { tables := m.tables.map Table.fold, joins := m.joins.map Join.fold }

def Change.fold : Change → Change
  | addTable table => addTable table.fold
  | dropTable table => dropTable table.fold
  | addColumn table column => addColumn (foldName table) column.fold
  | dropColumn table column => dropColumn (foldName table) column.fold
  | addJoin join referencing => addJoin join.fold referencing
  | dropJoin join referencing => dropJoin join.fold referencing
  | setPrimaryKey table old new =>
    setPrimaryKey (foldName table) (old.map foldName) (new.map foldName)
  | setColumnType table column old new => setColumnType (foldName table) (foldName column) old new
  | setNotNull table column => setNotNull (foldName table) (foldName column)
  | setAllowNull table column => setAllowNull (foldName table) (foldName column)

def Token.fold (t : Token) : Token := { t with change := t.change.fold }

/-- The error with folded names; a plan stops with no other error that has any. -/
def SchemaError.fold : SchemaError → SchemaError
  | danglingJoin join table => danglingJoin (foldName join) (foldName table)
  | e => e

/-! ### Folding twice -/

@[simp] theorem Column.fold_fold (c : Column) : c.fold.fold = c.fold := by simp [fold]

@[simp] theorem Table.fold_fold (t : Table) : t.fold.fold = t.fold := by
  simp [fold, foldedKey, Function.comp_def]

@[simp] theorem Join.foldPair_foldPair (pair : ColumnPair) :
    foldPair (foldPair pair) = foldPair pair := by
  simp [foldPair]

@[simp] theorem Condition.fold_fold (c : Condition) : c.fold.fold = c.fold := by
  cases c with
  | single pair => simp [fold]
  | composite pairs => simp [fold, Function.comp_def]

@[simp] theorem Join.fold_fold (j : Join) : j.fold.fold = j.fold := by simp [fold]

@[simp] theorem Change.fold_fold (c : Change) : c.fold.fold = c.fold := by
  cases c <;> simp [fold, Function.comp_def]

@[simp] theorem Token.fold_fold (t : Token) : t.fold.fold = t.fold := by simp [fold]

@[simp] theorem SchemaError.fold_fold (e : SchemaError) : e.fold.fold = e.fold := by
  cases e <;> simp [fold]

@[simp] theorem Token.priority_fold (t : Token) : t.fold.priority = t.priority := by
  rcases t with ⟨direction, change⟩
  cases change <;> rfl

/-! ### Tables and columns -/

@[simp] theorem Column.matchKey_fold (c : Column) : c.fold.matchKey = c.matchKey :=
  foldName_foldName c.name

@[simp] theorem Table.matchKey_fold (t : Table) : t.fold.matchKey = t.matchKey :=
  foldName_foldName t.name

theorem findColumn?_fold (t : Table) (name : String) :
    t.fold.findColumn? (foldName name) = (t.findColumn? name).map Column.fold := by
  rw [Table.findColumn?_eq, Table.findColumn?_eq, foldName_foldName]
  exact entryAt_map Column.matchKey_fold _

theorem findTable?_fold (m : Model) (name : String) :
    m.fold.findTable? (foldName name) = (m.findTable? name).map Table.fold := by
  rw [Model.findTable?_eq, Model.findTable?_eq, foldName_foldName]
  exact entryAt_map Table.matchKey_fold _

theorem isKeyColumn_fold (t : Table) (name : String) :
    t.fold.isKeyColumn (foldName name) = t.isKeyColumn name := by
  rw [Bool.eq_iff_iff, Table.isKeyColumn, Table.isKeyColumn, namedIn_iff, namedIn_iff]
  simp [Table.fold, Table.foldedKey, Function.comp_def]

/-! ### Joins -/

@[simp] theorem Join.entity_fold (j : Join) (s : Side) :
    j.fold.entity s = foldName (j.entity s) := by
  cases s <;> rfl

@[simp] theorem Condition.pairs_fold (c : Condition) :
    c.fold.pairs = c.pairs.map Join.foldPair := by
  cases c <;> rfl

theorem Join.columns_fold (j : Join) (s : Side) :
    j.fold.columns s = (j.columns s).map foldName := by
  cases s <;> simp [columns, Condition.columns, fold, Sides.get, foldPair, Function.comp_def]

theorem Join.spelledAs_fold (j : Join) : j.fold.SpelledAs j where
  entities s := by simp
  pairs := by simp [fold, Function.comp_def]

theorem signature_fold (j : Join) : j.fold.signature = j.signature := j.spelledAs_fold.signature_eq

theorem Join.display_fold (j : Join) : j.fold.display = foldName j.display := by
  have hpunctuation : foldName ", " = ", " ∧ foldName "." = "." ∧ foldName " > " = " > " := by
    decide
  rw [display, display, foldName_intercalate, hpunctuation.1, List.map_map]
  simp only [fold, Condition.pairs_fold, List.map_map, Function.comp_def, foldName_append,
    hpunctuation, foldPair]

/-! ### Outcomes -/

section Outcomes

variable {α β α' β' : Type}

/-- An outcome with its value or its error folded. -/
def folded (fold : α → β) (x : Except SchemaError α) : Except SchemaError β :=
  (x.map fold).mapError SchemaError.fold

theorem folded_map {g : α → α'} {h : β → β'} {f : α → β} {f' : α' → β'}
    (hf : ∀ a, f' (g a) = h (f a)) (x : Except SchemaError α) :
    (folded g x).map f' = folded h (x.map f) := by
  cases x with
  | error e => rfl
  | ok a => exact congrArg Except.ok (hf a)

theorem folded_bind {g : α → α'} {h : β → β'} {f : α → Except SchemaError β}
    {f' : α' → Except SchemaError β'} (hf : ∀ a, f' (g a) = folded h (f a))
    (x : Except SchemaError α) : (folded g x >>= f') = folded h (x >>= f) := by
  cases x with
  | error e => rfl
  | ok a => exact hf a

theorem folded_forM {g : α → β} {f : α → Except SchemaError Unit} {f' : β → Except SchemaError Unit}
    (hf : ∀ a, f' (g a) = folded id (f a)) (xs : List α) :
    (xs.map g).forM f' = folded id (xs.forM f) := by
  induction xs with
  | nil => rfl
  | cons x xs ih =>
    change (f' (g x) >>= fun _ => (xs.map g).forM f') = folded id (f x >>= fun _ => xs.forM f)
    rw [hf]
    apply folded_bind
    intro _
    exact ih

theorem folded_mapM {g : α → β} {h : α' → β'} {f : α → Except SchemaError α'}
    {f' : β → Except SchemaError β'} (hf : ∀ a, f' (g a) = folded h (f a)) (xs : List α) :
    (xs.map g).mapM f' = folded (List.map h) (xs.mapM f) := by
  induction xs with
  | nil => rfl
  | cons x xs ih =>
    rw [List.map_cons, List.mapM_cons, List.mapM_cons, hf]
    apply folded_bind
    intro y
    rw [ih]
    apply folded_bind
    intro ys
    rfl

end Outcomes

/-! ### Finding the tables of joins -/

theorem tableOf_fold (m : Model) (j : Join) (s : Side) :
    m.fold.tableOf j.fold s = folded Table.fold (m.tableOf j s) := by
  rw [Model.tableOf, Model.tableOf, Join.entity_fold, findTable?_fold, Join.display_fold]
  cases m.findTable? (j.entity s) with
  | none => rfl
  | some t => rfl

theorem validateJoins_fold (m : Model) : m.fold.validateJoins = folded id m.validateJoins := by
  apply folded_forM
  intro j
  rw [← List.map_id Side.both]
  apply folded_forM
  intro s
  rw [id_eq, tableOf_fold]
  apply folded_map
  intro t
  rfl

theorem isFullyToKey_fold (j : Join) (m : Model) (s : Side) :
    j.fold.isFullyToKey m.fold s = folded id (j.isFullyToKey m s) := by
  rw [Join.isFullyToKey, Join.isFullyToKey, tableOf_fold]
  apply folded_map
  intro t
  rw [Join.columns_fold, List.all_map]
  simp only [Function.comp_def, isKeyColumn_fold, id_eq]

theorem referencingSide_fold (j : Join) (m : Model) :
    j.fold.referencingSide m.fold = folded id (j.referencingSide m) := by
  have hsame : j.fold.dependentKey = j.dependentKey ∧ j.fold.cardinality = j.cardinality :=
    ⟨rfl, rfl⟩
  rw [Join.referencingSide, Join.referencingSide, hsame.1, hsame.2, isFullyToKey_fold]
  cases j.dependentKey.side? with
  | some declared => rfl
  | none =>
    apply folded_map
    intro full
    rfl

/-! ### Respelling joins -/

theorem respellEntity_fold (j : Join) (m : Model) (s : Side) :
    j.fold.respellEntity m.fold s = foldName (j.respellEntity m s) := by
  rw [Join.respellEntity, Join.respellEntity, Join.entity_fold, findTable?_fold]
  cases m.findTable? (j.entity s) with
  | none => rfl
  | some t => rfl

theorem respellColumn_fold (j : Join) (m : Model) (s : Side) (column : String) :
    j.fold.respellColumn m.fold s (foldName column) = foldName (j.respellColumn m s column) := by
  have hfound : (m.fold.findTable? (foldName (j.entity s))).bind
      (·.findColumn? (foldName column)) =
      ((m.findTable? (j.entity s)).bind (·.findColumn? column)).map Column.fold := by
    rw [findTable?_fold]
    cases m.findTable? (j.entity s) with
    | none => rfl
    | some t => exact findColumn?_fold t column
  rw [Join.respellColumn, Join.respellColumn, Join.entity_fold, hfound]
  cases (m.findTable? (j.entity s)).bind (·.findColumn? column) with
  | none => rfl
  | some c => rfl

theorem ofPairs_fold (entities : Sides String) (names : Sides (Option String))
    (cardinality : Cardinality) (dependentKey : DependentKey) (pairs : List ColumnPair) :
    Join.ofPairs (Join.foldPair entities) names cardinality dependentKey
        (pairs.map Join.foldPair) =
      folded Join.fold (Join.ofPairs entities names cardinality dependentKey pairs) := by
  have hcondition : Condition.ofPairs (pairs.map Join.foldPair) =
      folded Condition.fold (Condition.ofPairs pairs) := by
    match pairs with
    | [] => rfl
    | [_] => rfl
    | _ :: _ :: _ => rfl
  rw [Join.ofPairs, hcondition]
  apply folded_bind
  intro condition
  have hblank : (Join.foldPair entities).toList.any isBlank = entities.toList.any isBlank := by
    simp [Join.foldPair, Sides.toList, isBlank_foldName]
  rw [Join.make, Join.make, hblank]
  split
  · rfl
  · rfl

theorem respell_fold (j : Join) (m : Model) :
    j.fold.respell m.fold = folded Join.fold (j.respell m) := by
  have hentities : (⟨j.fold.respellEntity m.fold .left, j.fold.respellEntity m.fold .right⟩ :
      Sides String) = Join.foldPair ⟨j.respellEntity m .left, j.respellEntity m .right⟩ := by
    rw [respellEntity_fold, respellEntity_fold, Join.foldPair]
  have hpairs : j.fold.condition.pairs.map (fun pair =>
        ⟨j.fold.respellColumn m.fold .left pair.left,
          j.fold.respellColumn m.fold .right pair.right⟩) =
      (j.condition.pairs.map fun pair =>
        ⟨j.respellColumn m .left pair.left, j.respellColumn m .right pair.right⟩).map
        Join.foldPair := by
    simp only [Join.fold, Condition.pairs_fold, List.map_map]
    apply List.map_congr_left
    intro pair _
    simp only [Function.comp_apply, Join.foldPair]
    exact congrArg₂ Sides.mk (respellColumn_fold j m .left pair.left)
      (respellColumn_fold j m .right pair.right)
  rw [Join.respell, Join.respell, hentities, hpairs]
  change (Join.ofPairs (Join.foldPair _) j.names j.cardinality j.dependentKey _ >>= _) = _
  rw [ofPairs_fold]
  apply folded_bind
  intro respelled
  rfl

/-! ### The changes of a plan -/

theorem addJoinOf_fold (j : Join) (m : Model) :
    Change.addJoinOf j.fold m.fold = folded Change.fold (Change.addJoinOf j m) := by
  rw [Change.addJoinOf, Change.addJoinOf, referencingSide_fold]
  apply folded_map
  intro referencing
  rfl

theorem dropJoinOf_fold (j : Join) (imported original : Model) :
    Change.dropJoinOf j.fold imported.fold original.fold =
      folded Change.fold (Change.dropJoinOf j imported original) := by
  rw [Change.dropJoinOf, Change.dropJoinOf, referencingSide_fold]
  apply folded_bind
  intro referencing
  rw [respell_fold]
  apply folded_bind
  intro respelled
  rfl

theorem columnChanges_fold (table : String) (wanted actual : Column) :
    columnChanges (foldName table) wanted.fold actual.fold =
      (columnChanges table wanted actual).map Change.fold := by
  have hsame : ∀ c : Column, c.fold.type = c.type ∧ c.fold.nullable = c.nullable :=
    fun c => ⟨rfl, rfl⟩
  have hnull : ∀ nullable, Change.setNullability (foldName table) wanted.fold.name nullable =
      (Change.setNullability table wanted.name nullable).fold := by
    intro nullable
    cases nullable <;> rfl
  simp only [columnChanges, hsame, hnull, List.map_append]
  congr 1
  · split <;> rfl
  · split <;> rfl

section Scope

variable {options : PlanOptions} {scope : String → Bool}
  (hscope : options.inclusion.IsScope scope)

theorem keyChanges_fold (original imported : Table) :
    keyChanges options original.fold imported.fold =
      (keyChanges options original imported).map Change.fold := by
  have hkeys : sameNames original.fold.primaryKey imported.fold.primaryKey =
      sameNames original.primaryKey imported.primaryKey := by
    rw [Bool.eq_iff_iff, sameNames_iff, sameNames_iff]
    simp [Table.fold, Table.foldedKey, Function.comp_def]
  rw [keyChanges, keyChanges, hkeys]
  split
  · rfl
  · rfl

include hscope

theorem columnDifference_fold (original imported : Table) :
    columnDifference options.inclusion original.fold imported.fold =
      (columnDifference options.inclusion original imported).map Column.fold := by
  simp only [columnDifference, hscope.columnsIn]
  exact difference_map Column.matchKey_fold _ _

theorem tableChanges_fold (original imported : Table) :
    tableChanges options original.fold imported.fold =
      (tableChanges options original imported).map Change.fold := by
  simp only [tableChanges, columnDifference_fold hscope, keyChanges_fold, Difference.map,
    List.map_append, List.map_map, List.flatMap_map, List.map_flatMap]
  congr 2
  apply List.flatMap_congr
  intro pair _
  exact columnChanges_fold _ _ _

theorem tableDifference_fold (original imported : Model) :
    tableDifference options.inclusion original.fold imported.fold =
      (tableDifference options.inclusion original imported).map Table.fold := by
  have htables : ∀ m : Model, m.fold.tablesIn options.inclusion =
      (m.tablesIn options.inclusion).map Table.fold := by
    intro m
    rw [hscope.tablesIn, hscope.tablesIn, Model.fold, List.filter_map]
    simp only [Function.comp_def, Table.matchKey_fold]
  rw [tableDifference, htables, htables]
  exact difference_map Table.matchKey_fold _ _

theorem slotChanges_fold (original imported : Model) :
    slotChanges options original.fold imported.fold =
      (slotChanges options original imported).map Change.fold := by
  simp only [slotChanges, tableDifference_fold hscope, Difference.map, List.map_append,
    List.map_map, List.flatMap_map, List.map_flatMap]
  congr 1
  apply List.flatMap_congr
  intro pair _
  exact tableChanges_fold hscope _ _

theorem joinDifference_fold (original imported : Model) :
    joinDifference options.inclusion original.fold imported.fold =
      (joinDifference options.inclusion original imported).map Join.fold := by
  have hjoins : ∀ m : Model, m.fold.joinsIn options.inclusion =
      (m.joinsIn options.inclusion).map Join.fold := by
    intro m
    rw [Model.joinsIn, Model.joinsIn, Model.fold, List.filter_map]
    apply congrArg
    apply List.filter_congr
    intro j _
    rw [Function.comp_apply, hscope.includesJoin, hscope.includesJoin]
    simp [Join.isWithin]
  rw [joinDifference, hjoins, hjoins]
  exact difference_map signature_fold _ _

theorem joinChanges_fold (original imported : Model) :
    joinChanges options original.fold imported.fold =
      folded (List.map Change.fold) (joinChanges options original imported) := by
  rw [joinChanges, joinChanges, joinDifference_fold hscope]
  simp only [Difference.map]
  rw [folded_mapM (dropJoinOf_fold · imported original)]
  apply folded_bind
  intro drops
  split
  · rfl
  · rw [folded_mapM (addJoinOf_fold · original)]
    apply folded_bind
    intro adds
    rw [← List.map_append]
    rfl

/-! ### Ambiguous keys -/

theorem ambiguousColumns_fold (original imported : Table) :
    (ambiguousColumns options.inclusion original.fold imported.fold).map foldName =
      (ambiguousColumns options.inclusion original imported).map foldName := by
  rw [ambiguousColumns, ambiguousColumns, columnDifference_fold hscope, List.map_map, List.map_map]
  apply List.map_congr_left
  intro key _
  simp [Table.fold, foldName_append]

theorem ambiguousKeys_fold (original imported : Model) :
    (ambiguousKeys options.inclusion original.fold imported.fold).map foldName =
      (ambiguousKeys options.inclusion original imported).map foldName := by
  simp only [ambiguousKeys, tableDifference_fold hscope, joinDifference_fold hscope, Difference.map,
    List.map_append, List.flatMap_map, List.map_flatMap]
  congr 2
  apply List.flatMap_congr
  intro pair _
  exact ambiguousColumns_fold hscope _ _

/-! ### Plans -/

end Scope

/-- Outcomes of planning that differ in the case of names only: errors of one kind, or plans with
    the same tokens at the same positions. -/
inductive AlikePlans : Except SchemaError Plan → Except SchemaError Plan → Prop
  | refused {e e' : SchemaError} (errors : e.fold = e'.fold) : AlikePlans (.error e) (.error e')
  | planned {p p' : Plan} (tokens : p.tokens.map Token.fold = p'.tokens.map Token.fold)
      (ambiguous : p.ambiguous.map foldName = p'.ambiguous.map foldName) :
      AlikePlans (.ok p) (.ok p')

namespace AlikePlans

variable {x y z : Except SchemaError Plan}

theorem symm (h : AlikePlans x y) : AlikePlans y x := by
  cases h with
  | refused errors => exact .refused errors.symm
  | planned tokens ambiguous => exact .planned tokens.symm ambiguous.symm

theorem trans (h : AlikePlans x y) (h' : AlikePlans y z) : AlikePlans x z := by
  cases h with
  | refused errors =>
    cases h' with
    | refused errors' => exact .refused (errors.trans errors')
  | planned tokens ambiguous =>
    cases h' with
    | planned tokens' ambiguous' =>
      exact .planned (tokens.trans tokens') (ambiguous.trans ambiguous')

end AlikePlans

theorem alike_plan_fold {options : PlanOptions} {scope : String → Bool}
    (hscope : options.inclusion.IsScope scope) (original imported : Model) :
    AlikePlans (plan options original imported) (plan options original.fold imported.fold) := by
  rw [plan, plan, validateJoins_fold, validateJoins_fold, joinChanges_fold hscope]
  cases original.validateJoins with
  | error e => exact .refused e.fold_fold.symm
  | ok _ =>
    cases imported.validateJoins with
    | error e => exact .refused e.fold_fold.symm
    | ok _ =>
      cases joinChanges options original imported with
      | error e => exact .refused e.fold_fold.symm
      | ok ofJoins =>
        refine .planned ?_ (ambiguousKeys_fold hscope original imported).symm
        have htokens : (slotChanges options original.fold imported.fold ++
              ofJoins.map Change.fold).map (Token.mk .toDatabase) =
            ((slotChanges options original imported ++ ofJoins).map
              (Token.mk .toDatabase)).map Token.fold := by
          rw [slotChanges_fold hscope, ← List.map_append, List.map_map, List.map_map]
          rfl
        change (sortTokens ((slotChanges options original imported ++ ofJoins).map
            (Token.mk .toDatabase))).map Token.fold =
          (sortTokens ((slotChanges options original.fold imported.fold ++
            ofJoins.map Change.fold).map (Token.mk .toDatabase))).map Token.fold
        rw [htokens, sortTokens_map Token.priority_fold, List.map_map]
        apply List.map_congr_left
        intro t _
        exact t.fold_fold.symm

/-- **Models that differ in the case of names only get plans that do**, or are refused alike.  No
    name has to be unique. -/
theorem alike_plan {options : PlanOptions} {scope : String → Bool}
    (hscope : options.inclusion.IsScope scope) {original original' imported imported' : Model}
    (horiginal : original.fold = original'.fold) (himported : imported.fold = imported'.fold) :
    AlikePlans (plan options original imported) (plan options original' imported') := by
  have halike := alike_plan_fold hscope original imported
  rw [horiginal, himported] at halike
  exact halike.trans (alike_plan_fold hscope original' imported').symm

/-- Two tables, joined to each other, whose names may be one name, and so may those of the
    columns. -/
def twinModel (table table' column column' : String) : Model where
  tables :=
    [{ name := table
       columns := [⟨column, .integer, false, true⟩, ⟨column', .text, true, false⟩]
       primaryKey := [column'] },
     { name := table', columns := [⟨column', .integer, true, false⟩] }]
  joins :=
    [{ entities := ⟨table, table'⟩
       names := ⟨none, none⟩
       cardinality := .oneToMany
       dependentKey := .none
       condition := .single ⟨column, column'⟩ }]

theorem alike_plan_twins :
    (twinModel "Artist" "ARTIST" "Id" "ID").fold = (twinModel "aRTIST" "artist" "iD" "id").fold ∧
      (twinModel "artist" "Album" "id" "Name").fold =
        (twinModel "ARTIST" "album" "Id" "NAME").fold ∧
      AlikePlans
        (plan {} (twinModel "Artist" "ARTIST" "Id" "ID") (twinModel "artist" "Album" "id" "Name"))
        (plan {} (twinModel "aRTIST" "artist" "iD" "id")
          (twinModel "ARTIST" "album" "Id" "NAME")) :=
  ⟨by decide +kernel, by decide +kernel,
    alike_plan Inclusion.isScope_all (by decide +kernel) (by decide +kernel)⟩

end SchemaDrift
