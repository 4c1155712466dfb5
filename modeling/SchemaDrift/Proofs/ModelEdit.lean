/-
  SchemaDrift/Proofs/ModelEdit.lean
  =================================
  **What the changes about tables do to a model, table by table.**

  A change about a table acts on the table under one key.  What becomes of this table is
  `Change.editSlot`, which looks at nothing else, so a run of such changes succeeds when
  it succeeds under every key (`run_of_slots`).  Dropping a table also takes the joins
  that touch it, and this is all that such a run does to the joins.

  Endpoints without a name are given one now and then, and the names are no matter
  here.  Everything is told of the anonymous joins, which no naming changes
  (`anonymousJoins_compile`), and holds of runs that compile the model after each change
  as it does of those that do not.
-/
import SchemaDrift.Proofs.ChangeOutcome

namespace SchemaDrift

/-! ### Joins without names -/

/-- The join without the names of its endpoints. -/
def Join.anonymous (j : Join) : Join :=
  { j with names := ⟨none, none⟩, synthesized := ⟨false, false⟩ }

@[simp] theorem Join.entity_anonymous (j : Join) (s : Side) :
    j.anonymous.entity s = j.entity s := rfl

theorem Join.Legible.anonymous {j : Join} (h : j.Legible) : j.anonymous.Legible := ⟨h.1, h.2⟩

theorem anonymous_nameEndpoint (taken : TakenNames) (j : Join) (s : Side) :
    (j.nameEndpoint taken s).2.anonymous = j.anonymous := by
  rw [Join.nameEndpoint]
  split <;> rfl

theorem map_anonymous_nameJoins (taken : TakenNames) (js : List Join) :
    (nameJoins taken js).map Join.anonymous = js.map Join.anonymous := by
  induction js generalizing taken with
  | nil => rfl
  | cons j js ih =>
    rw [nameJoins, List.map_cons, List.map_cons, ih]
    congr 1
    exact (anonymous_nameEndpoint _ _ .right).trans (anonymous_nameEndpoint _ _ .left)

namespace Model

def anonymousJoins (m : Model) : List Join := m.joins.map Join.anonymous

@[simp] theorem tables_compile (m : Model) : m.compile.tables = m.tables := rfl

@[simp] theorem anonymousJoins_compile (m : Model) : m.compile.anonymousJoins = m.anonymousJoins :=
  map_anonymous_nameJoins _ _

/-- What does not depend on the names of endpoints may be asked of the anonymous joins. -/
theorem forall_anonymousJoins {m : Model} {P : Join → Prop} (hP : ∀ j, P j.anonymous ↔ P j) :
    (∀ j ∈ m.anonymousJoins, P j) ↔ ∀ j ∈ m.joins, P j := by
  rw [anonymousJoins, List.forall_mem_map]
  exact forall₂_congr fun j _ => hP j

/-- Naming the endpoints of joins makes no difference to the check of their tables. -/
theorem validateJoins_compile {m : Model} :
    m.compile.validateJoins = .ok () ↔ m.validateJoins = .ok () := by
  rw [validateJoins_eq_ok, validateJoins_eq_ok, ← forall_anonymousJoins fun _ => Iff.rfl,
    ← forall_anonymousJoins fun _ => Iff.rfl, anonymousJoins_compile]
  rfl

/-- Applies changes one after the other, with some work on the model after each of them. -/
def runChanges (post : Model → Model) (cs : List Change) (m : Model) : Except SchemaError Model :=
  cs.foldlM (fun m c => (c.apply m).map fun edited => post edited.model) m

end Model

/-- Work on a model that at most names its joins. -/
structure Settling (post : Model → Model) : Prop where
  tables : ∀ m, (post m).tables = m.tables
  joins : ∀ m, (post m).anonymousJoins = m.anonymousJoins

theorem settling_id : Settling id := ⟨fun _ => rfl, fun _ => rfl⟩

theorem settling_compile : Settling Model.compile :=
  ⟨Model.tables_compile, Model.anonymousJoins_compile⟩

theorem runChanges_cons {post : Model → Model} {c : Change} {cs : List Change} {m : Model}
    {edited : Edited Unit} (h : c.apply m = .ok edited) :
    m.runChanges post (c :: cs) = (post edited.model).runChanges post cs := by
  rw [Model.runChanges, List.foldlM_cons, h]
  rfl

theorem runChanges_append {post : Model → Model} {cs ds : List Change} {m m' : Model}
    (h : m.runChanges post cs = .ok m') :
    m.runChanges post (cs ++ ds) = m'.runChanges post ds := by
  rw [Model.runChanges, List.foldlM_append]
  change (m.runChanges post cs).bind _ = _
  rw [h]
  rfl

/-! ### Changes about tables -/

def ChangeKind.isJoin : ChangeKind → Bool
  | addJoin | dropJoin => true
  | _ => false

namespace Change

theorem isJoin_dual (c : Change) : c.dual.kind.isJoin = c.kind.isJoin := by
  cases c <;> rfl

/-- What a change makes of the table it is about; the inner `none` is a table that is not
    there, the outer one a refusal. -/
def editSlot (c : Change) (found : Option Table) : Option (Option Table) :=
  match c with
  | addTable t => if found.isSome then none else some (some t)
  | dropTable _ => found.map fun _ => none
  | addJoin _ _ | dropJoin _ _ => some found
  | c => found.bind fun t => (c.editTable t).map some

/-- Whether a change leaves a join that is there in the model. -/
def spares (c : Change) (j : Join) : Bool :=
  match c with
  | dropTable t => !j.touches t.name
  | _ => true

theorem touches_iff {j : Join} {name : String} :
    j.touches name = true ↔ ∃ s, foldName (j.entity s) = foldName name := by
  rw [Join.touches, namedIn_iff, List.mem_map]
  constructor
  · rintro ⟨entity, hentity, heq⟩
    obtain ⟨s, rfl⟩ := Sides.mem_toList.1 hentity
    exact ⟨s, heq⟩
  · rintro ⟨s, hs⟩
    exact ⟨j.entity s, Sides.mem_toList.2 ⟨s, rfl⟩, hs⟩

theorem spares_dropTable {t : Table} {j : Join} :
    (dropTable t).spares j = true ↔ ∀ s, foldName (j.entity s) ≠ t.matchKey := by
  rw [spares, Bool.not_eq_true', Bool.eq_false_iff, Ne, touches_iff, not_exists]
  rfl

/-- Whether a change is about the table under a key. -/
def isAt (key : String) (c : Change) : Bool := !c.kind.isJoin && foldName c.table == key

@[simp] theorem isAt_dual (key : String) (c : Change) : c.dual.isAt key = c.isAt key := by
  cases c <;> rfl

end Change

theorem editSlot_inTable {c : Change} (hc : c.kind.isInTable = true) (found : Option Table) :
    c.editSlot found = found.bind fun t => (c.editTable t).map some := by
  cases c with
  | addTable t => cases hc
  | dropTable t => cases hc
  | addJoin join referencing => cases hc
  | dropJoin join referencing => cases hc
  | _ => rfl

/-- A change about a table edits the table that is there, adds one that is not, or drops it. -/
theorem editSlot_cases {c : Change} (hc : c.kind.isJoin = false) {found slot : Option Table}
    (h : c.editSlot found = some slot) :
    (∃ t t', c.kind.isInTable = true ∧ found = some t ∧ c.editTable t = some t' ∧
        slot = some t') ∨
      (∃ t, c = .addTable t ∧ found = none ∧ slot = some t) ∨
      ∃ t old, c = .dropTable t ∧ found = some old ∧ slot = none := by
  rcases Bool.eq_false_or_eq_true c.kind.isInTable with hkind | hkind
  · rw [editSlot_inTable hkind] at h
    obtain ⟨t, hfound, hmap⟩ := Option.bind_eq_some_iff.1 h
    obtain ⟨t', hedit, rfl⟩ := Option.map_eq_some_iff.1 hmap
    exact .inl ⟨t, t', hkind, hfound, hedit, rfl⟩
  · cases c with
    | addTable t =>
      refine .inr (.inl ⟨t, rfl, ?_⟩)
      cases found with
      | none => exact ⟨rfl, (Option.some.inj h).symm⟩
      | some old => cases h
    | dropTable t =>
      obtain ⟨old, rfl, rfl⟩ := Option.map_eq_some_iff.1 h
      exact .inr (.inr ⟨t, old, rfl, rfl, rfl⟩)
    | addJoin join referencing => cases hc
    | dropJoin join referencing => cases hc
    | _ => cases hkind

theorem exists_slot_of_apply {c : Change} (hc : c.kind.isJoin = false) {m : Model}
    {edited : Edited Unit} (h : c.apply m = .ok edited) :
    ∃ slot, c.editSlot (m.tableAt (foldName c.table)) = some slot := by
  rcases Bool.eq_false_or_eq_true c.kind.isInTable with hkind | hkind
  · obtain ⟨t, t', ht, hedit, -⟩ := (apply_inTable_eq_ok hkind).1 h
    refine ⟨some t', ?_⟩
    rw [editSlot_inTable hkind, ← Model.findTable?_eq, ht, Option.bind_some, hedit, Option.map_some]
  · cases c with
    | addTable t =>
      obtain ⟨hfree, -⟩ := apply_addTable_eq_ok.1 h
      refine ⟨some t, if_neg ?_⟩
      change ¬ (m.findTable? t.name).isSome = true
      simp [hfree]
    | dropTable t =>
      obtain ⟨hthere, -⟩ := apply_dropTable_eq_ok.1 h
      obtain ⟨old, hfound⟩ := Option.isSome_iff_exists.1 hthere
      exact ⟨none, congrArg (Option.map fun _ => none) hfound⟩
    | addJoin join referencing => cases hc
    | dropJoin join referencing => cases hc
    | _ => cases hkind

/-- What a change about a table does to a model. -/
structure SlotStep (c : Change) (m : Model) (slot : Option Table) (m' : Model) : Prop where
  distinct : (m'.tables.map Table.matchKey).Nodup
  tables : ∀ key, m'.tableAt key = if foldName c.table = key then slot else m.tableAt key
  joins : m'.anonymousJoins = m.anonymousJoins.filter c.spares

section OneChange

variable {m : Model} (hdistinct : (m.tables.map Table.matchKey).Nodup)

include hdistinct

theorem slotStep_addTable {t : Table} (hfree : m.tableAt t.matchKey = none) :
    ∃ edited, (Change.addTable t).apply m = .ok edited ∧
      SlotStep (.addTable t) m (some t) edited.model := by
  refine ⟨_, apply_addTable_eq_ok.2 ⟨hfree, rfl⟩, ⟨?_, ?_, ?_⟩⟩
  · exact nodup_append_singleton hdistinct hfree
  · exact entryAt_append_singleton hfree
  · exact (List.filter_eq_self.2 fun _ _ => rfl).symm

theorem slotStep_dropTable {t old : Table} (hfound : m.tableAt t.matchKey = some old) :
    ∃ edited, (Change.dropTable t).apply m = .ok edited ∧
      SlotStep (.dropTable t) m none edited.model := by
  have hthere : (m.findTable? t.name).isSome = true := Option.isSome_iff_exists.2 ⟨old, hfound⟩
  refine ⟨_, apply_dropTable_eq_ok.2 ⟨hthere, rfl⟩, ⟨?_, ?_, ?_⟩⟩
  · exact nodup_eraseP hdistinct _
  · exact entryAt_eraseP hdistinct t.matchKey
  · refine (Model.anonymousJoins_compile _).trans ?_
    rw [Model.anonymousJoins, Model.anonymousJoins, List.filter_map]
    rfl

theorem slotStep_inTable {c : Change} (hc : c.kind.isInTable = true) {t t' : Table}
    (ht : m.tableAt (foldName c.table) = some t) (h : c.editTable t = some t') :
    ∃ edited, c.apply m = .ok edited ∧ SlotStep c m (some t') edited.model := by
  have hfound : t.matchKey = foldName c.table := keyOf_entryAt ht
  have hkey : t'.matchKey = foldName c.table := by
    rw [Table.matchKey, name_editTable h]
    exact hfound
  refine ⟨_, (apply_inTable_eq_ok hc).2 ⟨t, t', ht, h, rfl⟩, ⟨?_, fun key => ?_, ?_⟩⟩
  · change ((modifyFirst (fun u => u.matchKey == foldName c.table) (fun _ => t') m.tables).map
      _).Nodup
    rw [map_keyOf_modifyFirst fun _ _ => hkey]
    exact hdistinct
  · refine (entryAt_modifyFirst (fun _ _ => hkey) key).trans ?_
    split
    next heq =>
      subst heq
      change (m.tableAt _).map _ = _
      rw [ht, Option.map_some]
    next => rfl
  · apply (List.filter_eq_self.2 fun j _ => ?_).symm
    cases c with
    | dropTable table => cases hc
    | _ => rfl

theorem exists_slotStep {c : Change} (hc : c.kind.isJoin = false) {slot : Option Table}
    (h : c.editSlot (m.tableAt (foldName c.table)) = some slot) :
    ∃ edited, c.apply m = .ok edited ∧ SlotStep c m slot edited.model := by
  rcases editSlot_cases hc h with
    ⟨t, t', hkind, ht, hedit, rfl⟩ | ⟨t, rfl, hfree, rfl⟩ | ⟨t, old, rfl, hfound, rfl⟩
  · exact slotStep_inTable hdistinct hkind ht hedit
  · exact slotStep_addTable hdistinct hfree
  · exact slotStep_dropTable hdistinct hfound

/-- Nothing else is applied: a change about a table that is not refused edits its slot. -/
theorem slotStep_of_apply {c : Change} (hc : c.kind.isJoin = false) {edited : Edited Unit}
    (h : c.apply m = .ok edited) :
    ∃ slot, c.editSlot (m.tableAt (foldName c.table)) = some slot ∧
      SlotStep c m slot edited.model := by
  obtain ⟨slot, hslot⟩ := exists_slot_of_apply hc h
  obtain ⟨edited', happly, hstep⟩ := exists_slotStep hdistinct hc hslot
  obtain rfl : edited = edited' := Except.ok.inj (h.symm.trans happly)
  exact ⟨slot, hslot, hstep⟩

end OneChange

/-! ### A run of changes about tables -/

def runSlot (cs : List Change) (found : Option Table) : Option (Option Table) :=
  cs.foldlM (fun found c => c.editSlot found) found

/-- **A run about tables is a run under every key.**  If the changes about one table never stop,
    whichever the table is, then all changes run through, and the tables afterwards are those
    that the separate runs end with.  Of the joins those are left that no change takes. -/
theorem run_of_slots {post : Model → Model} (hpost : Settling post) {cs : List Change}
    (hcs : ∀ c ∈ cs, c.kind.isJoin = false) {m : Model}
    (hdistinct : (m.tables.map Table.matchKey).Nodup) {slot : String → Option Table}
    (h : ∀ key, runSlot (cs.filter (Change.isAt key)) (m.tableAt key) = some (slot key)) :
    ∃ m', m.runChanges post cs = .ok m' ∧ (m'.tables.map Table.matchKey).Nodup ∧
      (∀ key, m'.tableAt key = slot key) ∧
      m'.anonymousJoins = m.anonymousJoins.filter fun j => cs.all (Change.spares · j) := by
  induction cs generalizing m with
  | nil =>
    refine ⟨m, rfl, hdistinct, fun key => Option.some.inj (h key), ?_⟩
    exact (List.filter_eq_self.2 fun _ _ => rfl).symm
  | cons c cs ih =>
    have hc : c.kind.isJoin = false := hcs c List.mem_cons_self
    -- the table that `c` is about, and the rest of the run under its key
    have hhere : c.isAt (foldName c.table) = true := by simp [Change.isAt, hc]
    have hown := h (foldName c.table)
    rw [List.filter_cons_of_pos hhere] at hown
    obtain ⟨next, hnext, hrest⟩ := Option.bind_eq_some_iff.1 hown
    obtain ⟨edited, happly, hstep⟩ := exists_slotStep hdistinct hc hnext
    have htables : ∀ key, (post edited.model).tableAt key =
        if foldName c.table = key then next else m.tableAt key := by
      intro key
      rw [Model.tableAt, hpost.tables]
      exact hstep.tables key
    have hslots : ∀ key, runSlot (cs.filter (Change.isAt key)) ((post edited.model).tableAt key) =
        some (slot key) := by
      intro key
      rw [htables]
      by_cases hkey : foldName c.table = key
      · subst hkey
        rw [if_pos rfl]
        exact hrest
      · have hother := h key
        rw [List.filter_cons_of_neg (by simp [Change.isAt, hkey])] at hother
        rw [if_neg hkey]
        exact hother
    have hdistinct' : ((post edited.model).tables.map Table.matchKey).Nodup := by
      rw [hpost.tables]
      exact hstep.distinct
    obtain ⟨m', hrun, hnodup, hslot, hjoins⟩ :=
      ih (fun d hd => hcs d (List.mem_cons_of_mem c hd)) hdistinct' hslots
    refine ⟨m', (runChanges_cons happly).trans hrun, hnodup, hslot, ?_⟩
    rw [hjoins, hpost.joins, hstep.joins, List.filter_filter]
    refine List.filter_congr fun j _ => ?_
    rw [List.all_cons, Bool.and_comm]

end SchemaDrift
