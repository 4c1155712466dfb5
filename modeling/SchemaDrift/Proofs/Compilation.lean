/-
  SchemaDrift/Proofs/Compilation.lean
  ===================================
  **Compiling a model names every endpoint without a clash and changes nothing else.**

  An endpoint without a name gets the first of its candidates that is not in use at its
  source table, and the name is in use from then on (`made_nameEndpoint`).  At the end of a
  run all candidates before it are still names of endpoints, so it is the lowest that it
  could have got (`made_nameJoins`).

  No other endpoint has this name, whether it was named before, is named later in the same
  run, or is the other side of a self-join.  The name differs from those that were there in
  the beginning, and the names made up differ from each other, so that it occurs just once
  among the names of all endpoints (`count_takenNames_nameJoins`).  Main statement:
  `compile_completes`.
-/
import SchemaDrift.Proofs.Frame
import SchemaDrift.Proofs.NamesInUse

namespace SchemaDrift

/-! ### Endpoints without a name -/

namespace Join

/-- The candidates for the name of an endpoint, with the key of the table at which it starts. -/
def candidateEntry (j : Join) (s : Side) (n : Nat) : String × String :=
  (foldName (j.entity s), candidate ("to_" ++ lowerName (j.entity s.opposite)) n)

theorem entity_nameEndpoint (taken : TakenNames) (j : Join) (s t : Side) :
    (j.nameEndpoint taken s).2.entity t = j.entity t := by
  have hsame := congrArg Join.entities (anonymous_nameEndpoint taken j s)
  exact congrArg (Sides.get · t) hsame

theorem nameInUse?_nameEndpoint_opposite (taken : TakenNames) (j : Join) (s : Side) :
    (j.nameEndpoint taken s).2.nameInUse? s.opposite = j.nameInUse? s.opposite := by
  rw [nameInUse?, nameInUse?, name?_nameEndpoint_opposite, entity_nameEndpoint]

theorem candidateEntry_nameEndpoint (taken : TakenNames) (j : Join) (s t : Side) :
    (j.nameEndpoint taken s).2.candidateEntry t = j.candidateEntry t := by
  funext n
  rw [candidateEntry, candidateEntry, entity_nameEndpoint, entity_nameEndpoint]

theorem subset_nameEndpoint (taken : TakenNames) (j : Join) (s : Side) :
    taken ⊆ (j.nameEndpoint taken s).1 := by
  obtain ⟨new, -, htaken, -⟩ := exists_newNames_nameEndpoint taken j s
  rw [htaken]
  exact List.subset_append_right new taken

/-- An endpoint without a name gets the first of its candidates that is not in use, and the name is
    in use from then on. -/
theorem made_nameEndpoint (taken : TakenNames) {j : Join} {s : Side} (h : j.name? s = none) :
    ∃ n, (j.nameEndpoint taken s).2.nameInUse? s = some (j.candidateEntry s n) ∧
      j.candidateEntry s n ∉ taken ∧ ∀ i < n, j.candidateEntry s i ∈ taken := by
  obtain ⟨n, -, hname, hfirst⟩ := freshName_isFirstFree taken (foldName (j.entity s))
    ("to_" ++ lowerName (j.entity s.opposite))
  refine ⟨n, ?_, hfirst.free, hfirst.before⟩
  rw [nameEndpoint, h]
  simp only [candidateEntry, ← hname]
  cases s <;> rfl

theorem made_nameEndpoints (taken : TakenNames) {j : Join} {s : Side} (h : j.name? s = none) :
    ∃ n, (j.nameEndpoints taken).2.nameInUse? s = some (j.candidateEntry s n) ∧
      j.candidateEntry s n ∉ taken ∧
      ∀ i < n, j.candidateEntry s i ∈ (j.nameEndpoints taken).1 := by
  let first := j.nameEndpoint taken .left
  have hgrows : first.1 ⊆ (j.nameEndpoints taken).1 := subset_nameEndpoint first.1 first.2 .right
  cases s with
  | left =>
    obtain ⟨n, hname, hfree, hbefore⟩ := made_nameEndpoint taken h
    refine ⟨n, ?_, hfree, ?_⟩
    · exact (nameInUse?_nameEndpoint_opposite first.1 first.2 .right).trans hname
    · intro i hi
      exact hgrows (subset_nameEndpoint taken j .left (hbefore i hi))
  | right =>
    have hnone : first.2.name? .right = none :=
      (name?_nameEndpoint_opposite taken j .left).trans h
    obtain ⟨n, hname, hfree, hbefore⟩ := made_nameEndpoint first.1 hnone
    rw [candidateEntry_nameEndpoint] at hname hfree hbefore
    refine ⟨n, hname, ?_, ?_⟩
    · intro hmem
      exact hfree (subset_nameEndpoint taken j .left hmem)
    · intro i hi
      exact hgrows (hbefore i hi)

end Join

/-! ### All joins of a model -/

/-- The names in use when a join has been named are among those of all joins in the end. -/
theorem nameEndpoints_subset {taken inUse : TakenNames} {j : Join} (htaken : taken ⊆ inUse)
    (hnames : (j.nameEndpoints taken).2.namesInUse ⊆ inUse) :
    (j.nameEndpoints taken).1 ⊆ inUse := by
  obtain ⟨new, -, htaken', hperm⟩ := exists_newNames_nameEndpoints taken j
  rw [htaken']
  apply List.append_subset.2
  constructor
  · intro x hx
    exact hnames (hperm.mem_iff.2 (List.mem_append_left _ hx))
  · exact htaken

/-- What becomes of an endpoint without a name when a list of joins is named.  The induction is on
    the list; `inUse` holds what is taken on the way and the names that all joins have in the
    end. -/
theorem made_nameJoins {inUse : TakenNames} {js : List Join} {taken : TakenNames}
    (htaken : taken ⊆ inUse) (hnames : takenNames (nameJoins taken js) ⊆ inUse)
    {position : Nat} {j : Join} {s : Side} (hj : js[position]? = some j) (h : j.name? s = none) :
    ∃ k n, (nameJoins taken js)[position]? = some k ∧ k.nameInUse? s = some (j.candidateEntry s n) ∧
      j.candidateEntry s n ∉ taken ∧ ∀ i < n, j.candidateEntry s i ∈ inUse := by
  induction js generalizing taken position with
  | nil => cases hj
  | cons head js ih =>
    have hcons : takenNames (nameJoins taken (head :: js)) =
        (head.nameEndpoints taken).2.namesInUse ++
          takenNames (nameJoins (head.nameEndpoints taken).1 js) := rfl
    rw [hcons, List.append_subset] at hnames
    have hgrown := nameEndpoints_subset htaken hnames.1
    cases position with
    | zero =>
      obtain rfl : head = j := Option.some.inj hj
      obtain ⟨n, hname, hfree, hbefore⟩ := Join.made_nameEndpoints taken h
      exact ⟨_, n, rfl, hname, hfree, fun i hi => hgrown (hbefore i hi)⟩
    | succ position =>
      obtain ⟨k, n, hk, hname, hfree, hbefore⟩ := ih hgrown hnames.2 hj
      refine ⟨k, n, hk, hname, ?_, hbefore⟩
      obtain ⟨new, -, htaken', -⟩ := exists_newNames_nameEndpoints taken head
      rw [htaken'] at hfree
      exact fun hmem => hfree (List.mem_append_right new hmem)

/-- A name that was not in use before occurs just once when the joins have been named. -/
theorem count_takenNames_nameJoins {js : List Join} {x : String × String}
    (hnew : x ∉ takenNames js) (hx : x ∈ takenNames (nameJoins (takenNames js) js)) :
    (takenNames (nameJoins (takenNames js) js)).count x = 1 := by
  obtain ⟨new, hnews, hperm⟩ := exists_newNames (takenNames js) js
  have hmem : x ∈ new := by
    rcases List.mem_append.1 (hperm.subset hx) with hmem | hold
    · exact hmem
    · exact absurd hold hnew
  rw [hperm.count_eq, List.count_append, List.count_eq_zero_of_not_mem hnew,
    List.count_eq_one_of_mem hnews.nodup hmem]

/-- An item that alone has its image in a list is told by this image. -/
theorem eq_of_count_map_eq_one {α β : Type} [BEq β] [LawfulBEq β] {f : α → β} {xs : List α}
    {a b : α} (h : (xs.map f).count (f a) = 1) (ha : a ∈ xs) (hb : b ∈ xs) (hab : f b = f a) :
    b = a := by
  rw [List.count, List.countP_map, List.countP_eq_length_filter, List.length_eq_one_iff] at h
  obtain ⟨only, honly⟩ := h
  have hall : ∀ x ∈ xs, f x = f a → x = only := by
    intro x hx heq
    have hmem : x ∈ xs.filter ((· == f a) ∘ f) := List.mem_filter.2 ⟨hx, by simp [heq]⟩
    rw [honly] at hmem
    exact List.mem_singleton.1 hmem
  rw [hall a ha rfl, hall b hb hab]

/-! ### Models -/

namespace Model

/-- The name of an endpoint, which is given by the position of its join and by its side, and the key
    of the table at which it starts. -/
def nameAt? (m : Model) (position : Nat) (s : Side) : Option (String × String) :=
  m.joins[position]?.bind (·.nameInUse? s)

/-- A model with a name made up for each endpoint that had none, and no other difference. -/
structure CompletedBy (m m' : Model) : Prop where
  tables : m'.tables = m.tables
  /-- The joins are the same ones in the same order.  They keep the names they have, and names that
      are made up are flagged. -/
  joins : List.Forall₂ Join.CompletedBy m.joins m'.joins
  signatures : m'.joins.map Join.signature = m.joins.map Join.signature
  named : ∀ j ∈ m'.joins, ∀ s, (j.name? s).isSome = true
  /-- A name that is made up is a candidate before which all others are in use, and no other
      endpoint has it. -/
  made : ∀ position s j, m.joins[position]? = some j → j.name? s = none →
    ∃ n, m'.nameAt? position s = some (j.candidateEntry s n) ∧
      (∀ i < n, j.candidateEntry s i ∈ takenNames m'.joins) ∧
      ∀ position' s', m'.nameAt? position' s' = m'.nameAt? position s →
        position' = position ∧ s' = s

theorem map_signature_compile (m : Model) :
    m.compile.joins.map Join.signature = m.joins.map Join.signature := by
  have hsignature : ∀ m : Model,
      m.joins.map Join.signature = m.anonymousJoins.map Join.signature := by
    intro m
    rw [anonymousJoins, List.map_map]
    rfl
  rw [hsignature, hsignature, anonymousJoins_compile]

theorem relationship_mem {m : Model} (h : m.UpToDate) {position : Nat} {j : Join}
    (hj : m.joins[position]? = some j) (s : Side) :
    j.relationship position s ∈ m.relationships := by
  rw [h.relationships, relationshipsFrom_eq]
  apply List.mem_flatMap.2
  refine ⟨(j, position), List.mem_zipIdx_iff_getElem?.2 hj, ?_⟩
  cases s with
  | left => exact List.mem_cons_self
  | right => exact List.mem_cons_of_mem _ List.mem_cons_self

/-- A name that occurs just once belongs to one endpoint. -/
theorem endpoint_eq_of_nameAt? {m : Model} (h : m.UpToDate) {x : String × String}
    (hcount : (takenNames m.joins).count x = 1) {position position' : Nat} {s s' : Side}
    (hname : m.nameAt? position s = some x) (hname' : m.nameAt? position' s' = some x) :
    position' = position ∧ s' = s := by
  have hrelationship : ∀ {place : Nat} {t : Side}, m.nameAt? place t = some x →
      ∃ r ∈ m.relationships, r.join = place ∧ r.side = t ∧ (foldName r.source, r.name) = x := by
    intro place t hplace
    obtain ⟨k, hk, hx⟩ := Option.bind_eq_some_iff.1 hplace
    obtain ⟨name, hnamed, rfl⟩ := Option.map_eq_some_iff.1 hx
    refine ⟨k.relationship place t, relationship_mem h hk t, rfl, rfl, ?_⟩
    rw [Join.relationship, hnamed]
    rfl
  obtain ⟨r, hr, rfl, rfl, hrx⟩ := hrelationship hname
  obtain ⟨r', hr', rfl, rfl, hrx'⟩ := hrelationship hname'
  rw [← map_relationshipsFrom h.named 0, ← h.relationships, ← hrx] at hcount
  let keyed (r : Relationship) : String × String := (foldName r.source, r.name)
  have hone : (m.relationships.map keyed).count (keyed r) = 1 := hcount
  have hsame : keyed r' = keyed r := hrx'.trans hrx.symm
  obtain rfl := eq_of_count_map_eq_one hone hr hr' hsame
  exact ⟨rfl, rfl⟩

end Model

/-- **Compiling a model gives every endpoint a name and changes nothing else.**  A name that is made
    up belongs to no other endpoint that starts at the same table, whatever the case of its name;
    compiling the model again changes nothing; and every search for a name ends, at the first
    candidate that is free, when it has tried at most as many others as there are names in use. -/
theorem compile_completes (m : Model) :
    m.CompletedBy m.compile ∧ m.compile.compile = m.compile ∧
      ∀ taken source base, ∃ n ≤ taken.length,
        freshName taken source base = candidate base n ∧ IsFirstFree taken source base n := by
  have hcompiled := Model.upToDate_compile m
  refine ⟨?_, Model.compile_eq_self hcompiled, freshName_isFirstFree⟩
  refine ⟨rfl, completedBy_nameJoins _ _, m.map_signature_compile, hcompiled.named, ?_⟩
  intro position s j hj hnone
  have hsubset : takenNames m.joins ⊆ takenNames m.compile.joins := by
    obtain ⟨new, -, hperm⟩ := exists_newNames (takenNames m.joins) m.joins
    intro x hx
    exact hperm.mem_iff.2 (List.mem_append_right new hx)
  obtain ⟨k, n, hk, hname, hfree, hbefore⟩ :=
    made_nameJoins hsubset (List.Subset.refl _) hj hnone
  have hnameAt : m.compile.nameAt? position s = some (j.candidateEntry s n) :=
    Option.bind_eq_some_iff.2 ⟨k, hk, hname⟩
  have hmem : j.candidateEntry s n ∈ takenNames m.compile.joins := by
    apply List.mem_flatMap.2
    exact ⟨k, List.mem_of_getElem? hk, List.mem_filterMap.2 ⟨s, by cases s <;> decide, hname⟩⟩
  refine ⟨n, hnameAt, hbefore, ?_⟩
  intro position' s' hsame
  exact Model.endpoint_eq_of_nameAt? hcompiled (count_takenNames_nameJoins hfree hmem) hnameAt
    (hsame.trans hnameAt)

/-- Two self-joins, one of them with a declared name that is a candidate for the others. -/
example :
    (Model.ofParts [] [{ employeeJoin "MANAGER_ID" with names := ⟨none, none⟩ },
      { employeeJoin "MENTOR_ID" with names := ⟨some "to_employee1", none⟩ }]).joins.map
        Join.names =
      [⟨some "to_employee", some "to_employee2"⟩, ⟨some "to_employee1", some "to_employee3"⟩] := by
  decide +kernel

end SchemaDrift
