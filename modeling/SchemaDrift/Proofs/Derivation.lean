/-
  SchemaDrift/Proofs/Derivation.lean
  ==================================
  **What a model derives from its joins is never out of date.**

  A model is up to date when every endpoint of its joins has a name, and when its
  relationships and its index are those that its joins have now.  Compiling a model brings
  it up to date (`upToDate_compile`) and leaves an up-to-date model as it is
  (`compile_eq_self`).  An edit either compiles the model at its end or leaves the joins and
  what is derived from them alone, so it keeps a model up to date (`upToDate_step`), and so
  does every history.

  The relationships are kept in the order of the joins, and each comes with the one that
  leads the other way.  The index is asked by the key of a table, and what it gives is what
  a search through all joins would find (`joinsOf_eq_filter`).  Main statement:
  `derived_after`.
-/
import SchemaDrift.History
import SchemaDrift.Json.Model
import SchemaDrift.Proofs.ModelEdit

namespace SchemaDrift

/-! ### Names for all endpoints -/

theorem nameEndpoint_of_named {taken : TakenNames} {j : Join} {s : Side}
    (h : (j.name? s).isSome = true) : j.nameEndpoint taken s = (taken, j) := by
  obtain ⟨name, hname⟩ := Option.isSome_iff_exists.1 h
  rw [Join.nameEndpoint, hname]

theorem named_nameEndpoint (taken : TakenNames) (j : Join) (s : Side) :
    ((j.nameEndpoint taken s).2.name? s).isSome = true := by
  rw [Join.nameEndpoint]
  split
  next name hname => exact Option.isSome_iff_exists.2 ⟨name, hname⟩
  next => cases s <;> rfl

theorem name?_nameEndpoint_opposite (taken : TakenNames) (j : Join) (s : Side) :
    (j.nameEndpoint taken s).2.name? s.opposite = j.name? s.opposite := by
  rw [Join.nameEndpoint]
  split
  next => rfl
  next => cases s <;> rfl

theorem named_nameEndpoints (taken : TakenNames) (j : Join) (s : Side) :
    ((j.nameEndpoints taken).2.name? s).isSome = true := by
  cases s with
  | left =>
    have hkept := name?_nameEndpoint_opposite (j.nameEndpoint taken .left).1
      (j.nameEndpoint taken .left).2 .right
    exact (congrArg Option.isSome hkept).trans (named_nameEndpoint taken j .left)
  | right => exact named_nameEndpoint _ _ .right

theorem named_nameJoins (taken : TakenNames) (js : List Join) :
    ∀ j ∈ nameJoins taken js, ∀ s, (j.name? s).isSome = true := by
  induction js generalizing taken with
  | nil => exact List.forall_mem_nil _
  | cons j js ih =>
    rw [nameJoins, List.forall_mem_cons]
    exact ⟨named_nameEndpoints taken j, ih _⟩

/-- Joins whose endpoints all have names are left as they are, and the others are named as if these
    were not there. -/
theorem nameJoins_append {js : List Join} (h : ∀ j ∈ js, ∀ s, (j.name? s).isSome = true)
    (taken : TakenNames) (ks : List Join) :
    nameJoins taken (js ++ ks) = js ++ nameJoins taken ks := by
  induction js with
  | nil => rfl
  | cons j js ih =>
    obtain ⟨hj, hjs⟩ := List.forall_mem_cons.1 h
    have hsame : j.nameEndpoints taken = (taken, j) := by
      rw [Join.nameEndpoints, nameEndpoint_of_named (hj .left)]
      exact nameEndpoint_of_named (hj .right)
    rw [List.cons_append, nameJoins, hsame]
    exact congrArg (j :: ·) (ih hjs)

theorem nameJoins_eq_self {js : List Join} (h : ∀ j ∈ js, ∀ s, (j.name? s).isSome = true)
    (taken : TakenNames) : nameJoins taken js = js := by
  have happend := nameJoins_append h taken []
  rwa [List.append_nil, nameJoins, List.append_nil] at happend

/-! ### Relationships -/

theorem relationshipsFrom_eq (position : Nat) (js : List Join) :
    relationshipsFrom position js = (js.zipIdx position).flatMap fun (j, position) =>
      [j.relationship position .left, j.relationship position .right] := by
  induction js generalizing position with
  | nil => rfl
  | cons j js ih =>
    rw [relationshipsFrom, List.zipIdx_cons, List.flatMap_cons, ih]
    rfl

/-- Two relationships are the two directions of one join. -/
structure Relationship.Mirrors (a b : Relationship) : Prop where
  join : b.join = a.join
  side : b.side = a.side.opposite
  source : b.source = a.target
  target : b.target = a.source
  pairs : b.pairs = a.pairs.map Prod.swap

theorem mirrors_opposite (j : Join) (position : Nat) (s : Side) :
    (j.relationship position s).Mirrors (j.relationship position s.opposite) := by
  refine ⟨rfl, rfl, rfl, ?_, ?_⟩
  · exact congrArg j.entity s.opposite_opposite
  · simp only [Join.relationship, List.map_map, Side.opposite_opposite]
    rfl

/-- The direction that leads back is among the relationships of the same joins. -/
theorem exists_mirror {js : List Join} {position : Nat} {a : Relationship}
    (ha : a ∈ relationshipsFrom position js) : ∃ b ∈ relationshipsFrom position js, a.Mirrors b := by
  rw [relationshipsFrom_eq] at ha ⊢
  obtain ⟨⟨j, place⟩, hplace, hside⟩ := List.mem_flatMap.1 ha
  rcases List.mem_pair.1 hside with rfl | rfl
  · exact ⟨_, List.mem_flatMap.2 ⟨_, hplace, List.mem_pair.2 (.inr rfl)⟩,
      mirrors_opposite j place .left⟩
  · exact ⟨_, List.mem_flatMap.2 ⟨_, hplace, List.mem_pair.2 (.inl rfl)⟩,
      mirrors_opposite j place .right⟩

/-! ### The index -/

theorem touches_eq (j : Join) (table : String) :
    j.touches table = j.entities.toList.any (foldName · == foldName table) := by
  rw [Join.touches, namedIn]
  congr 1
  funext entity
  exact Bool.beq_comm

theorem positionsTouching_eq_nil {key : String} {js : List Join}
    (h : ∀ j ∈ js, j.entities.toList.any (foldName · == key) = false) (position : Nat) :
    positionsTouching key position js = [] := by
  induction js generalizing position with
  | nil => rfl
  | cons j js ih =>
    obtain ⟨hj, hjs⟩ := List.forall_mem_cons.1 h
    rw [positionsTouching, hj, ih hjs]
    rfl

/-- The joins at the positions that touch a key, where the first `before.length` joins are
    passed over. -/
theorem filterMap_positionsTouching (key : String) (before js : List Join) :
    (positionsTouching key before.length js).filterMap (fun i => (before ++ js)[i]?) =
      js.filter fun j => j.entities.toList.any (foldName · == key) := by
  induction js generalizing before with
  | nil => rfl
  | cons j js ih =>
    have hrest := ih (before ++ [j])
    rw [List.length_append, List.length_singleton, List.append_assoc, List.singleton_append]
      at hrest
    rw [positionsTouching]
    split
    next htouches =>
      rw [List.filterMap_cons_some (b := j) (by simp), hrest, List.filter_cons, if_pos htouches]
    next htouches => rw [hrest, List.filter_cons, if_neg htouches]

theorem lookup_joinIndex (key : String) (js : List Join) :
    ((joinIndex js).lookup key).getD [] = positionsTouching key 0 js := by
  by_cases hkey : key ∈ js.flatMap fun j => j.entities.toList.map foldName
  · rw [joinIndex, List.lookup_graph _ (mem_sortDistinct.2 hkey)]
    rfl
  · have hnone : (joinIndex js).lookup key = none := by
      rw [List.lookup_eq_none_iff]
      intro entry hentry
      obtain ⟨other, hother, rfl⟩ := List.mem_map.1 hentry
      refine bne_iff_ne.2 fun heq : key = other => hkey ?_
      rw [heq]
      exact mem_sortDistinct.1 hother
    have huntouched : ∀ j ∈ js, j.entities.toList.any (foldName · == key) = false := by
      intro j hj
      rw [List.any_eq_false]
      intro entity hentity hmatch
      exact hkey (List.mem_flatMap.2 ⟨j, hj, List.mem_map.2 ⟨entity, hentity, beq_iff_eq.1 hmatch⟩⟩)
    rw [hnone, positionsTouching_eq_nil huntouched]
    rfl

/-! ### Models that are up to date -/

/-- A model in which every endpoint is named and the derived parts are those of the joins. -/
structure Model.UpToDate (m : Model) : Prop where
  named : ∀ j ∈ m.joins, ∀ s, (j.name? s).isSome = true
  relationships : m.relationships = relationshipsFrom 0 m.joins
  index : m.index = joinIndex m.joins

namespace Model

theorem upToDate_empty : empty.UpToDate := ⟨List.forall_mem_nil _, rfl, rfl⟩

theorem upToDate_compile (m : Model) : m.compile.UpToDate := ⟨named_nameJoins _ _, rfl, rfl⟩

/-- Compiling has nothing to do on a model that is up to date. -/
theorem compile_eq_self {m : Model} (h : m.UpToDate) : m.compile = m := by
  rw [compile, nameJoins_eq_self h.named, derive, ← h.relationships, ← h.index]

theorem joinsOf_eq_filter {m : Model} (h : m.UpToDate) (table : String) :
    m.joinsOf table = m.joins.filter (·.touches table) := by
  rw [joinsOf, h.index, lookup_joinIndex]
  simp only [touches_eq]
  exact filterMap_positionsTouching (foldName table) [] m.joins

theorem upToDate_of_ofJson? {value : Json} {m : Model} (h : ofJson? value = some m) :
    m.UpToDate := by
  rw [ofJson?] at h
  obtain ⟨fields, -, hfields⟩ := Option.bind_eq_some_iff.1 h
  split at hfields
  next =>
    obtain ⟨tables, -, hrest⟩ := Option.bind_eq_some_iff.1 hfields
    obtain ⟨joins, -, hparts⟩ := Option.bind_eq_some_iff.1 hrest
    cases hparts
    exact upToDate_compile _
  next => cases hfields

theorem upToDate_of_ofText {text : String} {m : Model} (h : ofText text = .ok m) : m.UpToDate := by
  rw [ofText] at h
  split at h
  next loaded hread =>
    cases h
    obtain ⟨value, -, hvalue⟩ := Option.bind_eq_some_iff.1 hread
    exact upToDate_of_ofJson? hvalue
  next => cases h

/-! ### Edits -/

theorem UpToDate.apply {m : Model} (h : m.UpToDate) {c : Change} {edited : Edited Unit}
    (happly : c.apply m = .ok edited) : edited.model.UpToDate := by
  cases c with
  | addTable t =>
    obtain ⟨-, rfl⟩ := apply_addTable_eq_ok.1 happly
    exact ⟨h.named, h.relationships, h.index⟩
  | dropTable t =>
    obtain ⟨-, rfl⟩ := apply_dropTable_eq_ok.1 happly
    exact upToDate_compile _
  | addJoin j referencing =>
    obtain ⟨-, -, rfl⟩ := apply_addJoin_eq_ok.1 happly
    exact upToDate_compile _
  | dropJoin j referencing =>
    obtain ⟨position, removed, -, -, rfl⟩ := apply_dropJoin_eq_ok.1 happly
    exact upToDate_compile _
  | _ =>
    obtain ⟨t, t', -, -, rfl⟩ := (apply_inTable_eq_ok rfl).1 happly
    exact ⟨h.named, h.relationships, h.index⟩

theorem UpToDate.removeJoin {m : Model} (h : m.UpToDate) (j : Join) :
    (m.removeJoin j).model.UpToDate := by
  rw [Model.removeJoin]
  split
  · exact h
  · exact upToDate_compile _

end Model

namespace History

/-- Adding and removing a table are changes. -/
theorem step_addTable (h : History) (t : Table) :
    h.step (.addTable t) = h.step (.change (.addTable t)) := rfl

theorem step_removeTable (h : History) (name : String) :
    h.step (.removeTable name) = h.step (.change (.dropTable (.named name))) := by
  rw [step, step, Edit.run, Edit.run, Change.apply, Table.named]
  cases h.model.removeTable name <;> rfl

/-- No edit leaves a model with derived parts that its joins do not have. -/
theorem upToDate_step {h : History} (hm : h.model.UpToDate) (e : Edit) :
    (h.step e).model.UpToDate := by
  have hchange : ∀ c : Change, (h.step (.change c)).model.UpToDate := by
    intro c
    rw [step]
    split
    next edited hrun =>
      obtain ⟨changed, hchanged, rfl⟩ := map_eq_ok.1 hrun
      exact hm.apply hchanged
    next => exact hm
  cases e with
  | addTable t => exact step_addTable h t ▸ hchange _
  | removeTable name => exact step_removeTable h name ▸ hchange _
  | removeJoin j => exact hm.removeJoin j
  | change c => exact hchange c
  | addJoin _ | compile | loadJoins _ | loadForeignKeys _ => exact Model.upToDate_compile _

theorem upToDate_after {h : History} (hm : h.model.UpToDate) (edits : List Edit) :
    (h.after edits).model.UpToDate := by
  induction edits generalizing h with
  | nil => exact hm
  | cons e edits ih => exact ih (upToDate_step hm e)

end History

/-- **Whatever is done to a new or a loaded model**, every endpoint of its joins has a name, its
    relationships are those that start at the two sides of its joins, in their order and each
    with its mirror image, and its index gives for every table the joins that touch it. -/
theorem derived_after {m : Model} (hm : m = .empty ∨ ∃ text, Model.ofText text = .ok m)
    (edits : List Edit) :
    let reached := (History.after ⟨m, []⟩ edits).model
    (∀ j ∈ reached.joins, ∀ s, (j.name? s).isSome = true) ∧
      reached.relationships = (reached.joins.zipIdx.flatMap fun (j, position) =>
        [j.relationship position .left, j.relationship position .right]) ∧
      (∀ a ∈ reached.relationships, ∃ b ∈ reached.relationships, a.Mirrors b) ∧
      ∀ table, reached.joinsOf table = reached.joins.filter (·.touches table) := by
  have hstart : m.UpToDate := by
    rcases hm with rfl | ⟨text, htext⟩
    · exact Model.upToDate_empty
    · exact Model.upToDate_of_ofText htext
  intro reached
  have hreached : reached.UpToDate := History.upToDate_after (h := ⟨m, []⟩) hstart edits
  refine ⟨hreached.named, ?_, ?_, Model.joinsOf_eq_filter hreached⟩
  · rw [hreached.relationships, relationshipsFrom_eq]
  · rw [hreached.relationships]
    exact fun a ha => exists_mirror ha

def employeeJoin (column : String) : Join where
  entities := ⟨"EMPLOYEE", "Employee"⟩
  names := ⟨some "reports", none⟩
  cardinality := .oneToMany
  dependentKey := .none
  condition := .single ⟨"ID", column⟩

/-- A table is joined with itself twice, and one of the joins goes again; a second table of the
    same name is refused. -/
def employeeEdits : List Edit :=
  [.addTable { name := "EMPLOYEE", columns := [⟨"ID", .integer, false, true⟩] },
   .addJoin (employeeJoin "MANAGER_ID"), .addTable { name := "employee" },
   .change (.addJoin (employeeJoin "MENTOR_ID") .right), .removeJoin (employeeJoin "MANAGER_ID")]

theorem derived_after_employees :
    let reached := (History.after ⟨.empty, []⟩ employeeEdits).model
    reached.tables.length = 1 ∧ reached.joins.length = 1 ∧
      (∀ a ∈ reached.relationships, ∃ b ∈ reached.relationships, a.Mirrors b) ∧
      ∀ table, reached.joinsOf table = reached.joins.filter (·.touches table) :=
  ⟨by decide +kernel, by decide +kernel, (derived_after (.inl rfl) employeeEdits).2.2⟩

end SchemaDrift
