/-
  SchemaDrift/Proofs/NamesInUse.lean
  ==================================
  **Relationships that start at one table are told apart by their names.**

  The names that are made up when a model is compiled differ from each other and from all
  names in use (`exists_newNames`): there are more candidates than names in use, so one of
  them is free (`freshName_notMem`).  Naming therefore never makes two relationships alike
  that were not (`nodup_takenNames_nameJoins`).

  A name that was made up stays, and a join that comes later brings its own names along,
  declared or made up in another model.  Nothing compares these with the names in use, so
  a declared name may meet one that was made up before it came (`names_meet`).  The names
  in a model stay distinct exactly as long as no join brings a name that is in use.  Main
  statement: `namesDistinct_iff_fresh`.
-/
import Mathlib.Data.List.Flatten
import Mathlib.Data.List.Perm.Subperm
import SchemaDrift.Proofs.Derivation

namespace SchemaDrift

/-! ### Candidates -/

/-- What a candidate has behind its base. -/
def candidateDigits : Nat → List Char
  | 0 => []
  | n + 1 => writeDecimal (n + 1)

theorem toList_candidate (base : String) (n : Nat) :
    (candidate base n).toList = base.toList ++ candidateDigits n := by
  cases n with
  | zero => exact (List.append_nil _).symm
  | succ n => rw [candidate, String.toList_append, decimal, String.toList_ofList, candidateDigits]

theorem readDecimal_candidateDigits (n : Nat) :
    readDecimal (candidateDigits n) = if n = 0 then none else some n := by
  cases n with
  | zero => rfl
  | succ n => exact readDecimal_writeDecimal (n + 1)

theorem candidate_injective (base : String) : Function.Injective (candidate base) := by
  intro a b heq
  have hlist := congrArg String.toList heq
  rw [toList_candidate, toList_candidate] at hlist
  have hread := congrArg readDecimal (List.append_cancel_left hlist)
  rw [readDecimal_candidateDigits, readDecimal_candidateDigits] at hread
  split at hread <;> split at hread <;> simp_all

/-- The candidate with a number is free, and all before it are in use. -/
structure IsFirstFree (taken : TakenNames) (source base : String) (n : Nat) : Prop where
  free : (source, candidate base n) ∉ taken
  before : ∀ i < n, (source, candidate base i) ∈ taken

/-- A search tries the candidates one after the other.  All before the one it ends with are taken,
    and that one only if there are no more to try. -/
theorem exists_firstFree_eq (taken : String → Bool) (base : String) (fuel start : Nat) :
    ∃ n ≤ fuel, firstFree taken base fuel start = candidate base (start + n) ∧
      (∀ i < n, taken (candidate base (start + i)) = true) ∧
      (taken (candidate base (start + n)) = true → n = fuel) := by
  induction fuel generalizing start with
  | zero => exact ⟨0, Nat.le_refl 0, rfl, fun i hi => absurd hi (Nat.not_lt_zero i), fun _ => rfl⟩
  | succ fuel ih =>
    rw [firstFree]
    split
    next htaken =>
      obtain ⟨n, hn, hfound, hbefore, hlast⟩ := ih (start + 1)
      rw [Nat.add_right_comm] at hfound hlast
      refine ⟨n + 1, Nat.succ_le_succ hn, hfound, ?_, fun h => congrArg Nat.succ (hlast h)⟩
      intro i hi
      cases i with
      | zero => exact htaken
      | succ i =>
        have hlater := hbefore i (Nat.lt_of_succ_lt_succ hi)
        rwa [Nat.add_right_comm] at hlater
    next hfree =>
      exact ⟨0, Nat.zero_le _, rfl, fun i hi => absurd hi (Nat.not_lt_zero i),
        fun htaken => absurd htaken hfree⟩

/-- There are no more candidates in use than names. -/
theorem exists_candidate_notMem (taken : TakenNames) (source base : String) :
    ∃ i ≤ taken.length, (source, candidate base i) ∉ taken := by
  by_contra! hall
  let candidates := (List.range (taken.length + 1)).map fun i => (source, candidate base i)
  have hdistinct : candidates.Nodup := by
    refine List.nodup_range.map fun a b heq => ?_
    exact candidate_injective base (congrArg Prod.snd heq)
  have hsubset : candidates ⊆ taken := by
    intro entry hentry
    obtain ⟨i, hi, rfl⟩ := List.mem_map.1 hentry
    exact hall i (Nat.le_of_lt_succ (List.mem_range.1 hi))
  have hlength := (List.subperm_of_subset hdistinct hsubset).length_le
  rw [List.length_map, List.length_range] at hlength
  exact absurd hlength (Nat.not_succ_le_self _)

/-- The search ends at the first free candidate, and tries no more candidates before it than there
    are names in use. -/
theorem freshName_isFirstFree (taken : TakenNames) (source base : String) :
    ∃ n ≤ taken.length, freshName taken source base = candidate base n ∧
      IsFirstFree taken source base n := by
  obtain ⟨n, hn, hfound, hbefore, hlast⟩ :=
    exists_firstFree_eq (fun name => taken.contains (source, name)) base taken.length 0
  simp only [Nat.zero_add, List.contains_iff_mem] at hfound hbefore hlast
  refine ⟨n, hn, hfound, ?_, hbefore⟩
  intro htaken
  -- a search that ends in use has gone through all candidates, of which one is free
  obtain ⟨i, hi, hfree⟩ := exists_candidate_notMem taken source base
  rw [← hlast htaken] at hi
  rcases Nat.lt_or_eq_of_le hi with hlt | rfl
  · exact hfree (hbefore i hlt)
  · exact hfree htaken

theorem freshName_notMem (taken : TakenNames) (source base : String) :
    (source, freshName taken source base) ∉ taken := by
  obtain ⟨n, -, hname, hfirst⟩ := freshName_isFirstFree taken source base
  rw [hname]
  exact hfirst.free

/-! ### New names -/

/-- Names that differ from each other and from those in use. -/
structure NewNames (taken new : TakenNames) : Prop where
  nodup : new.Nodup
  fresh : ∀ x ∈ new, x ∉ taken

theorem NewNames.nil (taken : TakenNames) : NewNames taken [] :=
  ⟨List.nodup_nil, List.forall_mem_nil _⟩

theorem NewNames.append {taken new later : TakenNames} (h : NewNames taken new)
    (hlater : NewNames (new ++ taken) later) : NewNames taken (later ++ new) := by
  constructor
  · refine List.nodup_append'.2 ⟨hlater.nodup, h.nodup, fun x hx hold => ?_⟩
    exact hlater.fresh x hx (List.mem_append_left _ hold)
  · intro x hx
    rcases List.mem_append.1 hx with hx | hx
    · exact fun htaken => hlater.fresh x hx (List.mem_append_right _ htaken)
    · exact h.fresh x hx

/-- The name of one endpoint with the key of the table at which it starts. -/
def Join.nameInUse? (j : Join) (s : Side) : Option (String × String) :=
  (j.name? s).map fun name => (foldName (j.entity s), name)

def Join.namesInUse (j : Join) : TakenNames := Side.both.filterMap j.nameInUse?

theorem takenNames_cons (j : Join) (js : List Join) :
    takenNames (j :: js) = j.namesInUse ++ takenNames js := rfl

theorem Join.namesInUse_eq (j : Join) :
    j.namesInUse = (j.nameInUse? .left).toList ++ (j.nameInUse? .right).toList := by
  rw [namesInUse, Side.both]
  cases hleft : j.nameInUse? .left <;> cases hright : j.nameInUse? .right <;> simp [hleft, hright]

theorem perm_namesInUse_synthesizeName {j : Join} {s : Side} (h : j.name? s = none)
    (name : String) :
    (j.synthesizeName s name).namesInUse.Perm ((foldName (j.entity s), name) :: j.namesInUse) := by
  have hnone : j.nameInUse? s = none := congrArg (Option.map _) h
  cases s with
  | left =>
    rw [Join.namesInUse_eq, Join.namesInUse_eq, hnone]
    exact .refl _
  | right =>
    rw [Join.namesInUse_eq, Join.namesInUse_eq, hnone, Option.toList_none, List.append_nil]
    exact List.perm_append_singleton _ _

theorem exists_newNames_nameEndpoint (taken : TakenNames) (j : Join) (s : Side) :
    ∃ new, NewNames taken new ∧ (j.nameEndpoint taken s).1 = new ++ taken ∧
      (j.nameEndpoint taken s).2.namesInUse.Perm (new ++ j.namesInUse) := by
  rw [Join.nameEndpoint]
  split
  next => exact ⟨[], .nil taken, rfl, .refl _⟩
  next hnone =>
    refine ⟨[_], ⟨List.nodup_singleton _, ?_⟩, rfl, perm_namesInUse_synthesizeName hnone _⟩
    exact List.forall_mem_singleton.2 (freshName_notMem taken _ _)

theorem exists_newNames_nameEndpoints (taken : TakenNames) (j : Join) :
    ∃ new, NewNames taken new ∧ (j.nameEndpoints taken).1 = new ++ taken ∧
      (j.nameEndpoints taken).2.namesInUse.Perm (new ++ j.namesInUse) := by
  obtain ⟨left, hleft, htaken, hnames⟩ := exists_newNames_nameEndpoint taken j .left
  obtain ⟨right, hright, htaken', hnames'⟩ :=
    exists_newNames_nameEndpoint (j.nameEndpoint taken .left).1
      (j.nameEndpoint taken .left).2 .right
  refine ⟨right ++ left, hleft.append (htaken ▸ hright), ?_, ?_⟩
  · rw [List.append_assoc, ← htaken]
    exact htaken'
  · rw [List.append_assoc]
    exact hnames'.trans (hnames.append_left right)

/-- Naming joins adds names that differ from each other and from those in use, and takes none
    away. -/
theorem exists_newNames (taken : TakenNames) (js : List Join) :
    ∃ new, NewNames taken new ∧
      (takenNames (nameJoins taken js)).Perm (new ++ takenNames js) := by
  induction js generalizing taken with
  | nil => exact ⟨[], .nil taken, .refl _⟩
  | cons j js ih =>
    obtain ⟨own, hown, htaken, hnames⟩ := exists_newNames_nameEndpoints taken j
    obtain ⟨later, hlater, hrest⟩ := ih (j.nameEndpoints taken).1
    rw [htaken] at hlater
    refine ⟨later ++ own, hown.append hlater, ?_⟩
    calc takenNames (nameJoins taken (j :: js))
        = (j.nameEndpoints taken).2.namesInUse ++
            takenNames (nameJoins (j.nameEndpoints taken).1 js) := rfl
      List.Perm _ ((own ++ j.namesInUse) ++ (later ++ takenNames js)) := hnames.append hrest
      List.Perm _ ((later ++ own) ++ (j.namesInUse ++ takenNames js)) := by
        rw [List.append_assoc, List.append_assoc]
        exact ((List.perm_append_comm_assoc _ _ _).append_left own).trans
          (List.perm_append_comm_assoc _ _ _)

theorem nodup_takenNames_nameJoins {taken : TakenNames} {js : List Join}
    (h : takenNames js ⊆ taken) :
    (takenNames (nameJoins taken js)).Nodup ↔ (takenNames js).Nodup := by
  obtain ⟨new, hnew, hperm⟩ := exists_newNames taken js
  rw [hperm.nodup_iff, List.nodup_append']
  constructor
  · rintro ⟨-, hold, -⟩
    exact hold
  · intro hold
    exact ⟨hnew.nodup, hold, fun x hx hmem => hnew.fresh x hx (h hmem)⟩

/-! ### Models -/

/-- Relationships that start at one table, whatever the case of its name, have different names. -/
def Model.NamesDistinct (m : Model) : Prop :=
  (m.relationships.map fun r => (foldName r.source, r.name)).Nodup

instance (m : Model) : Decidable m.NamesDistinct := List.nodupDecidable _

/-- The names that were declared, each with the key of the table at which it starts. -/
def declaredNames (js : List Join) : TakenNames :=
  js.flatMap fun j => Side.both.filterMap fun s =>
    (j.declaredName? s).map fun name => (foldName (j.entity s), name)

theorem map_relationshipsFrom {js : List Join} (h : ∀ j ∈ js, ∀ s, (j.name? s).isSome = true)
    (position : Nat) :
    ((relationshipsFrom position js).map fun r => (foldName r.source, r.name)) = takenNames js := by
  induction js generalizing position with
  | nil => rfl
  | cons j js ih =>
    obtain ⟨hj, hjs⟩ := List.forall_mem_cons.1 h
    obtain ⟨left, hleft⟩ := Option.isSome_iff_exists.1 (hj .left)
    obtain ⟨right, hright⟩ := Option.isSome_iff_exists.1 (hj .right)
    rw [relationshipsFrom, List.map_append, ih hjs, takenNames_cons, Join.namesInUse_eq,
      Join.nameInUse?, Join.nameInUse?, hleft, hright]
    simp [Side.both, Join.relationship, hleft, hright]

namespace Model

theorem UpToDate.namesDistinct_iff {m : Model} (h : m.UpToDate) :
    m.NamesDistinct ↔ (takenNames m.joins).Nodup := by
  rw [NamesDistinct, h.relationships, map_relationshipsFrom h.named]

/-- Compiling a model makes no two names alike. -/
theorem namesDistinct_compile (m : Model) :
    m.compile.NamesDistinct ↔ (takenNames m.joins).Nodup := by
  rw [(upToDate_compile m).namesDistinct_iff]
  exact nodup_takenNames_nameJoins (List.Subset.refl _)

end Model

/-! ### Edits -/

namespace Edit

/-- The joins that an edit brings into a model. -/
def arriving (m : Model) : Edit → List Join
  | addJoin j => [j]
  | loadJoins js => m.resolvable js
  | loadForeignKeys fks =>
    m.resolvable (fks.filterMap fun fk => (Join.ofForeignKey m fk).toOption)
  | change (.addJoin j _) => if (m.addNewJoin j).isOk then [j] else []
  | _ => []

/-- The names that come with an edit, declared or made up elsewhere, are not in use, and differ
    from each other. -/
def Fresh (m : Model) (e : Edit) : Prop := (takenNames (m.joins ++ e.arriving m)).Nodup

end Edit

/-- Compiling what is left of the joins of an up-to-date model brings nothing in. -/
theorem sublist_compile {m rest : Model} (hm : m.UpToDate) (h : rest.joins.Sublist m.joins) :
    rest.compile.joins.Sublist m.joins := by
  have hsame : rest.compile.joins = rest.joins :=
    nameJoins_eq_self (fun j hj => hm.named j (h.subset hj)) _
  rwa [hsame]

theorem joins_removeJoin {m : Model} (hm : m.UpToDate) (j : Join) :
    (m.removeJoin j).model.joins.Sublist m.joins := by
  rw [Model.removeJoin]
  split
  next => exact .refl _
  next position removed _ => exact sublist_compile hm (List.eraseIdx_sublist _ _)

/-- A change brings the join that it adds, and at most takes joins away otherwise. -/
theorem joins_apply {m : Model} (hm : m.UpToDate) {c : Change} {edited : Edited Unit}
    (happly : c.apply m = .ok edited) :
    edited.model.joins =
        (Model.compile { m with joins := m.joins ++ (Edit.change c).arriving m }).joins ∨
      (Edit.change c).arriving m = [] ∧ edited.model.joins.Sublist m.joins := by
  cases c with
  | addTable t =>
    obtain ⟨-, rfl⟩ := apply_addTable_eq_ok.1 happly
    exact .inr ⟨rfl, .refl _⟩
  | dropTable t =>
    obtain ⟨-, rfl⟩ := apply_dropTable_eq_ok.1 happly
    exact .inr ⟨rfl, sublist_compile hm List.filter_sublist⟩
  | addJoin j referencing =>
    left
    have harrives : (Edit.change (.addJoin j referencing)).arriving m = [j] := by
      have hadded : m.addNewJoin j = .ok edited := happly
      rw [Edit.arriving, hadded]
      rfl
    obtain ⟨-, -, rfl⟩ := apply_addJoin_eq_ok.1 happly
    rw [harrives]
    rfl
  | dropJoin j referencing =>
    obtain ⟨position, removed, -, -, rfl⟩ := apply_dropJoin_eq_ok.1 happly
    exact .inr ⟨rfl, sublist_compile hm (List.eraseIdx_sublist _ _)⟩
  | _ =>
    obtain ⟨t, t', -, -, rfl⟩ := (apply_inTable_eq_ok rfl).1 happly
    exact .inr ⟨rfl, .refl _⟩

theorem arriving_eq_nil_of_error {m : Model} {c : Change} {e : SchemaError}
    (happly : c.apply m = .error e) : (Edit.change c).arriving m = [] := by
  cases c with
  | addJoin j referencing =>
    have hrefused : m.addNewJoin j = .error e := happly
    rw [Edit.arriving, hrefused]
    rfl
  | _ => rfl

/-- An edit brings joins and compiles the model, or at most takes joins away. -/
theorem joins_step {h : History} (hm : h.model.UpToDate) (e : Edit) :
    (h.step e).model.joins =
        (Model.compile { h.model with joins := h.model.joins ++ e.arriving h.model }).joins ∨
      e.arriving h.model = [] ∧ (h.step e).model.joins.Sublist h.model.joins := by
  have hchange : ∀ c : Change, (h.step (.change c)).model.joins =
        (Model.compile
          { h.model with joins := h.model.joins ++ (Edit.change c).arriving h.model }).joins ∨
      (Edit.change c).arriving h.model = [] ∧
        (h.step (.change c)).model.joins.Sublist h.model.joins := by
    intro c
    rw [History.step, Edit.run]
    cases happly : c.apply h.model with
    | error e => exact .inr ⟨arriving_eq_nil_of_error happly, .refl _⟩
    | ok edited => exact joins_apply hm happly
  cases e with
  | addTable t => exact hchange (.addTable t)
  | removeTable name => exact History.step_removeTable h name ▸ hchange (.dropTable (.named name))
  | removeJoin j => exact .inr ⟨rfl, joins_removeJoin hm j⟩
  | change c => exact hchange c
  | compile => exact .inr ⟨rfl, (Model.compile_eq_self hm).symm ▸ .refl _⟩
  | addJoin _ | loadJoins _ | loadForeignKeys _ => exact .inl rfl

theorem namesDistinct_step {h : History} (hm : h.model.UpToDate) (hnames : h.model.NamesDistinct)
    (e : Edit) : (h.step e).model.NamesDistinct ↔ e.Fresh h.model := by
  rw [(History.upToDate_step hm e).namesDistinct_iff, Edit.Fresh]
  rcases joins_step hm e with hjoins | ⟨hnone, hsublist⟩
  · rw [hjoins]
    exact nodup_takenNames_nameJoins (List.Subset.refl _)
  · have hold := hm.namesDistinct_iff.1 hnames
    rw [hnone, List.append_nil]
    exact iff_of_true (hold.sublist (hsublist.flatMap _)) hold

/-- **The names in a model stay distinct exactly as long as no join brings a name in use.**  In
    every state of a history the relationships that start at one table have different names, if
    and only if they have at its beginning, and at each edit the names that come with it are
    different from each other and from all that the model has then. -/
theorem namesDistinct_iff_fresh {h : History} (hm : h.model.UpToDate) (edits : List Edit) :
    (∀ reached ∈ edits.scanl History.step h, reached.model.NamesDistinct) ↔
      h.model.NamesDistinct ∧ ∀ before e later, edits = before ++ e :: later →
        e.Fresh (h.after before).model := by
  induction edits generalizing h with
  | nil => simp
  | cons e edits ih =>
    rw [List.scanl_cons, List.forall_mem_cons, ih (History.upToDate_step hm e)]
    refine and_congr_right fun hnames => ?_
    rw [namesDistinct_step hm hnames]
    constructor
    · rintro ⟨hfresh, hrest⟩ before e' later heq
      cases before with
      | nil =>
        obtain ⟨rfl, -⟩ := List.cons.inj heq
        exact hfresh
      | cons first before =>
        obtain ⟨rfl, hedits⟩ := List.cons.inj heq
        exact hrest before e' later hedits
    · intro hall
      refine ⟨hall [] e edits rfl, fun before e' later heq => ?_⟩
      exact hall (e :: before) e' later (congrArg (e :: ·) heq)

/-- Artists and the paintings that they have painted or own. -/
def galleryModel : Model :=
  .ofParts
    [{ name := "ARTIST", columns := [⟨"ID", .integer, false, true⟩], primaryKey := ["ID"] },
     { name := "PAINTING"
       columns :=
         [⟨"ID", .integer, false, true⟩, ⟨"ARTIST_ID", .integer, false, false⟩,
          ⟨"OWNER_ID", .integer, true, false⟩]
       primaryKey := ["ID"] }]
    []

def galleryJoin (column : String) (name : Option String) : Join where
  entities := ⟨"ARTIST", "PAINTING"⟩
  names := ⟨name, none⟩
  cardinality := .oneToMany
  dependentKey := .none
  condition := .single ⟨"ID", column⟩

/-- A join without names, then one with a declared name. -/
def galleryEdits (name : String) : List Edit :=
  [.addJoin (galleryJoin "ARTIST_ID" none), .addJoin (galleryJoin "OWNER_ID" (some name))]

theorem upToDate_galleryModel : galleryModel.UpToDate := by
  rw [galleryModel, Model.ofParts]
  exact Model.upToDate_compile _

theorem namesDistinct_gallery :
    galleryModel.UpToDate ∧ galleryModel.NamesDistinct ∧
      ∀ before e later, galleryEdits "collection" = before ++ e :: later →
        e.Fresh (History.after ⟨galleryModel, []⟩ before).model := by
  have hnames : ∀ reached ∈ (galleryEdits "collection").scanl History.step ⟨galleryModel, []⟩,
      reached.model.NamesDistinct := by decide +kernel
  exact ⟨upToDate_galleryModel,
    (namesDistinct_iff_fresh (h := ⟨galleryModel, []⟩) upToDate_galleryModel _).1 hnames⟩

/-- Declared names that differ in every state do not keep all names apart: here one comes that
    was made up before. -/
theorem names_meet :
    (∀ reached ∈ (galleryEdits "to_painting").scanl History.step ⟨galleryModel, []⟩,
        (declaredNames reached.model.joins).Nodup) ∧
      ¬ ∀ reached ∈ (galleryEdits "to_painting").scanl History.step ⟨galleryModel, []⟩,
        reached.model.NamesDistinct := by
  decide +kernel

end SchemaDrift
