/-
  SchemaDrift/Proofs/Frame.lean
  =============================
  **What a change leaves as it was.**

  A change that is refused leaves everything as it was, also where it is carried out in
  place.  A change that is not refused leaves everything but what it names.  `Change.Frames`
  says for each kind what this is: which tables, columns, joins, names and events are there
  afterwards, in which order, and that the others are those that were there before.

  Nothing is assumed of the model.  Where a name or a signature is used twice, the first
  item that has it is replaced or taken out (`ReplacesFirst`), and the others stay.  Joins
  that were never named may be given names when the model is compiled again, and nothing
  else of them changes (`completedBy_nameJoins`).  Main statement: `inPlace_frames`.
-/
import SchemaDrift.Proofs.Derivation
import SchemaDrift.Proofs.InPlace

namespace SchemaDrift

/-! ### One item of a list -/

/-- The first item that passes a test is `x`, and some items are put in its place.  All that comes
    before and behind it stays. -/
def ReplacesFirst {α : Type} (test : α → Bool) (x : α) (replacement xs ys : List α) : Prop :=
  ∃ front back, (∀ y ∈ front, test y = false) ∧ test x = true ∧
    xs = front ++ x :: back ∧ ys = front ++ replacement ++ back

section ReplacesFirst

variable {α : Type} {test : α → Bool} {x : α} {xs : List α}

theorem exists_split_of_find? (h : xs.find? test = some x) :
    ∃ front back, (∀ y ∈ front, test y = false) ∧ test x = true ∧ xs = front ++ x :: back := by
  obtain ⟨hx, front, back, hsplit, hfront⟩ := List.find?_eq_some_iff_append.1 h
  refine ⟨front, back, fun y hy => ?_, hx, hsplit⟩
  simpa using hfront y hy

theorem modifyFirst_append {change : α → α} {front back : List α}
    (hfront : ∀ y ∈ front, test y = false) (hx : test x = true) :
    modifyFirst test change (front ++ x :: back) = front ++ change x :: back := by
  induction front with
  | nil => exact if_pos hx
  | cons y front ih =>
    obtain ⟨hy, hrest⟩ := List.forall_mem_cons.1 hfront
    rw [List.cons_append, modifyFirst, if_neg (by simp [hy]), ih hrest, List.cons_append]

theorem replacesFirst_modifyFirst (h : xs.find? test = some x) (change : α → α) :
    ReplacesFirst test x [change x] xs (modifyFirst test change xs) := by
  obtain ⟨front, back, hfront, hx, rfl⟩ := exists_split_of_find? h
  refine ⟨front, back, hfront, hx, rfl, ?_⟩
  rw [modifyFirst_append hfront hx, List.append_assoc]
  rfl

theorem replacesFirst_eraseP (h : xs.find? test = some x) :
    ReplacesFirst test x [] xs (xs.eraseP test) := by
  obtain ⟨front, back, hfront, hx, rfl⟩ := exists_split_of_find? h
  refine ⟨front, back, hfront, hx, rfl, ?_⟩
  rw [List.eraseP_append_right _ (by simpa using hfront), List.eraseP_cons_of_pos hx,
    List.append_nil]

theorem replacesFirst_eraseIdx {position : Nat} (h : xs.findIdx? test = some position)
    (hx : xs[position]? = some x) : ReplacesFirst test x [] xs (xs.eraseIdx position) := by
  obtain ⟨hlt, htest, hbefore⟩ := List.findIdx?_eq_some_iff_getElem.1 h
  obtain ⟨_, rfl⟩ := List.getElem?_eq_some_iff.1 hx
  refine ⟨xs.take position, xs.drop (position + 1), fun y hy => ?_, htest, ?_, ?_⟩
  · obtain ⟨i, hi, rfl⟩ := List.mem_take_iff_getElem.1 hy
    exact Bool.eq_false_iff.2 (hbefore i (by omega))
  · rw [List.getElem_cons_drop, List.take_append_drop]
  · rw [List.eraseIdx_eq_take_drop_succ, List.append_nil]

end ReplacesFirst

/-! ### Joins with names made up -/

namespace Join

/-- The name of one side of a join, and whether it was made up. -/
def endpoint (j : Join) (s : Side) : Option String × Bool := (j.name? s, j.isSynthesized s)

/-- A join with a name made up for each side that had none, and no other difference. -/
structure CompletedBy (j k : Join) : Prop where
  rest : k.anonymous = j.anonymous
  kept : ∀ s, (j.name? s).isSome = true → k.endpoint s = j.endpoint s
  made : ∀ s, j.name? s = none → (k.name? s).isSome = true ∧ k.isSynthesized s = true

theorem endpoint_nameEndpoint_opposite (taken : TakenNames) (j : Join) (s : Side) :
    (j.nameEndpoint taken s).2.endpoint s.opposite = j.endpoint s.opposite := by
  rw [nameEndpoint]
  split
  next => rfl
  next => cases s <;> rfl

theorem endpoint_nameEndpoint_of_named (taken : TakenNames) {j : Join} {s : Side}
    (h : (j.name? s).isSome = true) : (j.nameEndpoint taken s).2.endpoint s = j.endpoint s := by
  rw [nameEndpoint_of_named h]

theorem isSynthesized_nameEndpoint (taken : TakenNames) {j : Join} {s : Side}
    (h : j.name? s = none) : (j.nameEndpoint taken s).2.isSynthesized s = true := by
  rw [nameEndpoint, h]
  cases s <;> rfl

theorem completedBy_nameEndpoints (taken : TakenNames) (j : Join) :
    j.CompletedBy (j.nameEndpoints taken).2 := by
  let first := j.nameEndpoint taken .left
  have hleft : (j.nameEndpoints taken).2.endpoint .left = first.2.endpoint .left :=
    endpoint_nameEndpoint_opposite first.1 first.2 .right
  have hright : first.2.endpoint .right = j.endpoint .right :=
    endpoint_nameEndpoint_opposite taken j .left
  have hrightName : j.name? .right = first.2.name? .right := congrArg Prod.fst hright.symm
  refine ⟨?_, fun s hs => ?_, fun s hs => ⟨named_nameEndpoints taken j s, ?_⟩⟩
  · exact (anonymous_nameEndpoint _ _ .right).trans (anonymous_nameEndpoint _ _ .left)
  · cases s with
    | left => exact hleft.trans (endpoint_nameEndpoint_of_named taken hs)
    | right =>
      exact (endpoint_nameEndpoint_of_named first.1 (hrightName ▸ hs)).trans hright
  · cases s with
    | left => exact (congrArg Prod.snd hleft).trans (isSynthesized_nameEndpoint taken hs)
    | right => exact isSynthesized_nameEndpoint first.1 (hrightName.symm.trans hs)

end Join

theorem completedBy_nameJoins (taken : TakenNames) (js : List Join) :
    List.Forall₂ Join.CompletedBy js (nameJoins taken js) := by
  induction js generalizing taken with
  | nil => exact .nil
  | cons j js ih =>
    rw [nameJoins]
    exact .cons (j.completedBy_nameEndpoints taken) (ih _)

/-! ### What is there afterwards -/

namespace Change

/-- The columns of a table before and after a change of it. -/
def FramesColumns (c : Change) (columns columns' : List Column) : Prop :=
  match c with
  | addColumn _ column => columns' = columns ++ [column]
  | dropColumn _ column =>
    ∃ x, ReplacesFirst (fun y => sameName y.name column.name) x [] columns columns'
  | setColumnType _ name _ new =>
    ∃ x, ReplacesFirst (fun y => sameName y.name name) x [{ x with type := new }] columns columns'
  | setNotNull _ name =>
    ∃ x, ReplacesFirst (fun y => sameName y.name name) x [x.notNull] columns columns'
  | setAllowNull _ name =>
    ∃ x, x.key = false ∧
      ReplacesFirst (fun y => sameName y.name name) x [{ x with nullable := true }] columns columns'
  | setPrimaryKey _ _ new =>
    List.Forall₂ (fun x y => y.name = x.name ∧ y.type = x.type ∧ y.key = namedIn new x.name ∧
      y.nullable = (x.nullable && !namedIn new x.name)) columns columns'
  | addTable _ | dropTable _ | addJoin _ _ | dropJoin _ _ => columns' = columns

/-- A table before and after a change of it. -/
structure FramesTable (c : Change) (t t' : Table) : Prop where
  catalog : t'.catalog = t.catalog
  schema : t'.schema = t.schema
  name : t'.name = t.name
  key : t'.primaryKey = c.editKey t.primaryKey
  columns : c.FramesColumns t.columns t'.columns

/-- A model and its events before and after a change inside a table. -/
def FramesInTable (c : Change) (h h' : History) : Prop :=
  (∃ t t', ReplacesFirst (fun u => sameName u.name c.table) t [t'] h.model.tables h'.model.tables ∧
    c.FramesTable t t') ∧
  h' = { h with model := { h.model with tables := h'.model.tables } }

/-- A model and its events before and after a change. -/
def Frames (c : Change) (h h' : History) : Prop :=
  match c with
  | addTable t => h' = { h with model := { h.model with tables := h.model.tables ++ [t] } }
  | dropTable t =>
    h'.model.UpToDate ∧
      (∃ old, ReplacesFirst (fun u => sameName u.name t.name) old [] h.model.tables
        h'.model.tables) ∧
      List.Forall₂ Join.CompletedBy (h.model.joins.filter fun j => !j.touches t.name)
        h'.model.joins ∧
      h'.events = h.events ++ (h.model.joins.filter fun j => j.touches t.name).map .removed
  | addJoin j _ =>
    h'.model.UpToDate ∧ h'.model.tables = h.model.tables ∧
      List.Forall₂ Join.CompletedBy (h.model.joins ++ [j]) h'.model.joins ∧
      h'.events = h.events ++ [.added j]
  | dropJoin j _ =>
    h'.model.UpToDate ∧ h'.model.tables = h.model.tables ∧
      ∃ removed rest,
        (ReplacesFirst (· == j) removed [] h.model.joins rest ∨
          j ∉ h.model.joins ∧
            ReplacesFirst (fun k => k.signature == j.signature) removed [] h.model.joins rest) ∧
        List.Forall₂ Join.CompletedBy rest h'.model.joins ∧
        h'.events = h.events ++ [.removed removed]
  | c => c.FramesInTable h h'

end Change

/-! ### Every change keeps to it -/

theorem framesTable_editTable {c : Change} {t t' : Table} (h : c.editTable t = some t') :
    c.FramesTable t t' := by
  cases c with
  | addColumn table column =>
    simp only [Change.editTable] at h
    split at h
    · cases h
    · cases h
      exact ⟨rfl, rfl, rfl, rfl, rfl⟩
  | dropColumn table column =>
    obtain ⟨x, hx, rfl⟩ := Option.map_eq_some_iff.1 h
    exact ⟨rfl, rfl, rfl, rfl, x, replacesFirst_eraseP hx⟩
  | setPrimaryKey table old new =>
    simp only [Change.editTable] at h
    split at h
    · cases h
      refine ⟨rfl, rfl, rfl, rfl, ?_⟩
      refine List.forall₂_map_right_iff.2 (List.forall₂_same.2 fun x _ => ?_)
      rw [Table.markKey]
      cases namedIn new x.name <;> simp [Column.asKey]
    · cases h
  | setColumnType table name old new =>
    obtain ⟨x, hx, rfl⟩ := Option.map_eq_some_iff.1 h
    exact ⟨rfl, rfl, rfl, rfl, x, replacesFirst_modifyFirst hx _⟩
  | setNotNull table name =>
    obtain ⟨x, hx, rfl⟩ := Option.map_eq_some_iff.1 h
    exact ⟨rfl, rfl, rfl, rfl, x, replacesFirst_modifyFirst hx _⟩
  | setAllowNull table name =>
    obtain ⟨x, hx, hedit⟩ := Option.bind_eq_some_iff.1 h
    split at hedit
    next => cases hedit
    next hkey =>
      cases hedit
      exact ⟨rfl, rfl, rfl, rfl, x, Bool.eq_false_iff.2 hkey, replacesFirst_modifyFirst hx _⟩
  | addTable t => cases h
  | dropTable t => cases h
  | addJoin j referencing => cases h
  | dropJoin j referencing => cases h

theorem replacesFirst_matchingJoin {m : Model} {j removed : Join} {position : Nat}
    (hmatch : m.matchingJoin? j = some position) (hremoved : m.joins[position]? = some removed) :
    ReplacesFirst (· == j) removed [] m.joins (m.joins.eraseIdx position) ∨
      j ∉ m.joins ∧ ReplacesFirst (fun k => k.signature == j.signature) removed [] m.joins
        (m.joins.eraseIdx position) := by
  rw [Model.matchingJoin?] at hmatch
  rcases Option.or_eq_some_iff.1 hmatch with hequal | ⟨hnone, hsignature⟩
  · exact .inl (replacesFirst_eraseIdx hequal hremoved)
  · refine .inr ⟨fun hmem => ?_, replacesFirst_eraseIdx hsignature hremoved⟩
    have hnot := List.findIdx?_eq_none_iff.1 hnone j hmem
    simp at hnot

theorem framesInTable_of_apply {c : Change} (hc : c.kind.isInTable = true) {h : History}
    {edited : Edited Unit} (happly : c.apply h.model = .ok edited) :
    c.FramesInTable h ⟨edited.model, h.events ++ edited.events⟩ := by
  obtain ⟨t, t', ht, hedit, rfl⟩ := (apply_inTable_eq_ok hc).1 happly
  refine ⟨⟨t, t', replacesFirst_modifyFirst ht _, framesTable_editTable hedit⟩, ?_⟩
  rw [Edited.done, List.append_nil]
  rfl

theorem frames_of_apply {c : Change} {h : History} {edited : Edited Unit}
    (happly : c.apply h.model = .ok edited) :
    c.Frames h ⟨edited.model, h.events ++ edited.events⟩ := by
  cases c with
  | addTable t =>
    obtain ⟨-, rfl⟩ := apply_addTable_eq_ok.1 happly
    simp [Change.Frames, Edited.done]
  | dropTable t =>
    obtain ⟨hthere, rfl⟩ := apply_dropTable_eq_ok.1 happly
    obtain ⟨old, hold⟩ := Option.isSome_iff_exists.1 hthere
    exact ⟨Model.upToDate_compile _, ⟨old, replacesFirst_eraseP hold⟩,
      completedBy_nameJoins _ _, rfl⟩
  | addJoin j referencing =>
    obtain ⟨-, -, rfl⟩ := apply_addJoin_eq_ok.1 happly
    exact ⟨Model.upToDate_compile _, rfl, completedBy_nameJoins _ _, rfl⟩
  | dropJoin j referencing =>
    obtain ⟨position, removed, hmatch, hremoved, rfl⟩ := apply_dropJoin_eq_ok.1 happly
    exact ⟨Model.upToDate_compile _, rfl, removed, _,
      replacesFirst_matchingJoin hmatch hremoved, completedBy_nameJoins _ _, rfl⟩
  | _ => exact framesInTable_of_apply rfl happly

/-- **A change that is refused leaves a model and its events as they were, and one that is carried
    out changes only what it names**, whichever way the model is written to on the way. -/
theorem inPlace_frames (c : Change) (h : History) :
    let ran := InPlace.run c.inPlace h
    ran.1 = (c.apply h.model).map (fun _ => ()) ∧ ran.2 = h.step (.change c) ∧
      match ran.1 with
      | .ok () => c.Frames h ran.2
      | .error _ => ran.2 = h := by
  intro ran
  have hran : ran = h.follow (c.apply h.model) := run_inPlace c h
  rw [hran, History.step, Edit.run]
  cases happly : c.apply h.model with
  | error e => exact ⟨rfl, rfl, rfl⟩
  | ok edited => exact ⟨rfl, rfl, frames_of_apply happly⟩

end SchemaDrift
