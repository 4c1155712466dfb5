/-
  SchemaDrift/Proofs/JoinFile.lean
  ================================
  **Joins that are written to a file are read back from it.**

  A file keeps of a join everything but the names that were made up, and it does not tell
  a single pair of columns from a list of one (`Join.stored`).  Three steps lead from the
  joins to what is read.  The text of a file gives the tags that were written
  (`tokens_write`); they are nested, so that the check lets them pass; and the reader
  makes of the tags of one join the join of its declared parts, or refuses it
  (`foldlM_joinTokens`).  The run over all joins follows by induction (`read_write`).

  Main statement: `read_write_joins`.
-/
import SchemaDrift.JoinFile.Read
import SchemaDrift.JoinFile.Write
import SchemaDrift.Proofs.MarkupText
import SchemaDrift.Proofs.Outcome

namespace SchemaDrift

/-! ### What a file keeps of a join -/

namespace Join

/-- Whether a join can be read from a file: its tables have names, and it joins over columns. -/
structure IsStorable (j : Join) : Prop where
  entities : ∀ s, isBlank (j.entity s) = false
  pairs : j.condition.pairs ≠ []

/-- The join of what a file says of a join. -/
def reread (j : Join) : Except SchemaError Join :=
  ofPairs j.entities ⟨j.declaredName? .left, j.declaredName? .right⟩ j.cardinality j.dependentKey
    j.condition.pairs

/-- A join as a file keeps it: with its declared names alone, and a single pair of columns where
    there is no other. -/
def stored (j : Join) : Join :=
  { j with
    names := ⟨j.declaredName? .left, j.declaredName? .right⟩
    synthesized := ⟨false, false⟩
    condition := match j.condition.pairs with
      | [pair] => .single pair
      | pairs => .composite pairs }

theorem any_isBlank_entities (j : Join) :
    j.entities.toList.any isBlank = false ↔ ∀ s, isBlank (j.entity s) = false := by
  simp only [List.any_eq_false, Bool.not_eq_true]
  exact Sides.forall_mem_toList

theorem reread_of_isStorable {j : Join} (h : j.IsStorable) : j.reread = .ok j.stored := by
  have hblank := (any_isBlank_entities j).2 h.entities
  unfold reread ofPairs make stored
  rw [hblank]
  match hpairs : j.condition.pairs with
  | [] => exact absurd hpairs h.pairs
  | [pair] => rfl
  | first :: second :: pairs => rfl

/-- What cannot be read is refused for its table names or for the lack of columns. -/
theorem reread_of_not_isStorable {j : Join} (h : ¬ j.IsStorable) :
    ∃ fault, j.reread = .error (.configuration fault) := by
  unfold reread ofPairs make
  match hpairs : j.condition.pairs with
  | [] => exact ⟨.noColumnPairs, rfl⟩
  | first :: pairs =>
    have hblank : j.entities.toList.any isBlank = true := by
      by_contra hnone
      refine h ⟨(any_isBlank_entities j).1 (by simpa using hnone), ?_⟩
      rw [hpairs]
      exact List.cons_ne_nil _ _
    refine ⟨.blankEndpoint, ?_⟩
    rw [hblank]
    cases pairs <;> rfl

end Join

namespace JoinFile

open Markup

/-! ### The tags of a file -/

section Tags

variable (j : Join)

def joinAttributes : Attributes :=
  [("toMany", j.cardinality.word), ("toDependentPK", j.dependentKey.word)]

def endpointAttributes (s : Side) : Attributes :=
  ("entity", j.entity s) ::
    match j.declaredName? s with
    | some name => [("name", name)]
    | none => []

def pairAttributes (pair : ColumnPair) : Attributes := [("left", pair.left), ("right", pair.right)]

def endpointToken (s : Side) : Token := tagToken (endpointName s) (endpointAttributes j s) true

def pairToken (pair : ColumnPair) : Token := tagToken "column-pair" (pairAttributes pair) true

/-- The tags between those that open and close a join. -/
def joinContent : List Token := Side.both.map (endpointToken j) ++ j.condition.pairs.map pairToken

def joinTokens : List Token :=
  tagToken "join" (joinAttributes j) false :: joinContent j ++ [.closing "join".toList]

end Tags

/-- The tags of a file. -/
def fileTokens (js : List Join) : List Token :=
  tagToken "joins" [] false :: js.flatMap joinTokens ++ [.closing "joins".toList]

theorem wellKeyed_joinAttributes (j : Join) : WellKeyed (joinAttributes j) :=
  @wellKeyed_of_keys _ ["toMany", "toDependentPK"] rfl (by decide)

theorem wellKeyed_endpointAttributes (j : Join) (s : Side) :
    WellKeyed (endpointAttributes j s) := by
  unfold endpointAttributes
  cases j.declaredName? s with
  | none => exact @wellKeyed_of_keys _ ["entity"] rfl (by decide)
  | some name => exact @wellKeyed_of_keys _ ["entity", "name"] rfl (by decide)

theorem wellKeyed_pairAttributes (pair : ColumnPair) : WellKeyed (pairAttributes pair) :=
  @wellKeyed_of_keys _ ["left", "right"] rfl (by decide)

theorem isWord_endpointName (s : Side) : IsWord (endpointName s) := by
  cases s <;> decide

/-! ### The text gives the tags -/

theorem yields_joinLines (j : Join) :
    Yields ((joinLines j).flatMap brokenLine) (joinTokens j) := by
  have hopen : Yields (brokenLine ("  " ++ openingText "join" (joinAttributes j)))
      [tagToken "join" (joinAttributes j) false] :=
    (yields_openingText (by decide) (wellKeyed_joinAttributes j).words).brokenLine (by decide)
  have hends : Yields (Side.both.flatMap fun s => brokenLine ("    " ++ endpointText j s))
      (Side.both.map (endpointToken j)) :=
    yields_lines (by decide) fun s _ =>
      yields_closedText (isWord_endpointName s) (wellKeyed_endpointAttributes j s).words
  have hpairs : Yields (j.condition.pairs.flatMap fun pair => brokenLine ("    " ++ pairText pair))
      (j.condition.pairs.map pairToken) :=
    yields_lines (by decide) fun pair _ =>
      yields_closedText (by decide) (wellKeyed_pairAttributes pair).words
  have hclose : Yields (brokenLine ("  " ++ closingText "join")) [.closing "join".toList] :=
    (yields_closingText (by decide)).brokenLine (by decide)
  have hall := (hopen.append (hends.append hpairs)).append hclose
  simpa [joinLines, joinTokens, joinContent, joinAttributes, List.flatMap_map] using hall

/-- The document declaration is passed over. -/
theorem yields_declaration : Yields "<?xml version=\"1.0\" encoding=\"UTF-8\"?>".toList [] := by
  have hscan : ∀ rest, scanMarkup ("?xml version=\"1.0\" encoding=\"UTF-8\"?>".toList ++ rest) =
      some (none, rest) := fun _ => rfl
  exact yields_markup hscan

theorem tokens_write (js : List Join) : tokens (write js) = fileTokens js := by
  have hopen : Yields (brokenLine ("" ++ openingText "joins" [])) [tagToken "joins" [] false] :=
    (yields_openingText (by decide) (List.forall_mem_nil _)).brokenLine (by decide)
  have hjoins : Yields (js.flatMap fun j => (joinLines j).flatMap brokenLine)
      (js.flatMap joinTokens) := yields_flatMap fun j _ => yields_joinLines j
  have hclose : Yields (brokenLine ("" ++ closingText "joins")) [.closing "joins".toList] :=
    (yields_closingText (by decide)).brokenLine (by decide)
  have hall := yields_declaration.append ((hopen.append hjoins).append hclose)
  have htext : (write js).toList = "<?xml version=\"1.0\" encoding=\"UTF-8\"?>".toList ++
      (openingText "joins" [] :: js.flatMap joinLines ++
        [closingText "joins"]).flatMap brokenLine := toList_intercalate_lines _ _
  refine Yields.tokens ?_ ?_
  · rw [htext]
    simpa [fileTokens, List.flatMap_assoc] using hall
  · rw [htext]
    simp

theorem balanced_fileTokens (js : List Join) : Balanced (fileTokens js) := by
  have htags : ∀ {α : Type} (xs : List α) (name : α → String) (attributes : α → Attributes),
      Balanced (xs.map fun x => tagToken (name x) (attributes x) true) := by
    intro α xs name attributes
    rw [List.map_eq_flatMap]
    exact balanced_flatMap fun x _ => balanced_closed (name x) (attributes x)
  have hjoin : ∀ j ∈ js, Balanced (joinTokens j) := fun j _ =>
    ((htags _ _ _).append (htags _ _ _)).element "join" (joinAttributes j)
  exact (balanced_flatMap hjoin).element "joins" []

/-! ### The reader makes joins of the tags -/

theorem parse_word_cardinality (c : Cardinality) : Cardinality.parse c.word = .ok c := by
  cases c <;> rfl

theorem parse_word_dependentKey (d : DependentKey) : DependentKey.parse d.word = .ok d := by
  cases d <;> rfl

theorem readAttributes_written {attributes : Attributes} (h : WellKeyed attributes) :
    readAttributes (attributesText attributes).toList = .ok attributes := by
  rw [readAttributes, attributes?_attributesText h]

/-- The draft that the opening tag of a join starts. -/
def openedBy (j : Join) : Draft :=
  { cardinality := some j.cardinality, dependentKey := some j.dependentKey }

/-- A draft with the declared part of an endpoint of a join. -/
def withEndpoint (d : Draft) (j : Join) : Side → Draft
  | .left =>
    { d with left := some (j.entity .left), leftName := (j.declaredName? .left).or d.leftName }
  | .right =>
    { d with right := some (j.entity .right), rightName := (j.declaredName? .right).or d.rightName }

/-- A draft with all declared parts of a join. -/
def filledBy (d : Draft) (j : Join) : Draft :=
  { withEndpoint (withEndpoint d j .left) j .right with pairs := d.pairs ++ j.condition.pairs }

namespace Reading

variable (r : Reading)

theorem step_tagToken (name : String) (attributes : Attributes) (closed : Bool) :
    r.step (tagToken name attributes closed) =
      r.openTag name (attributesText attributes).toList >>= fun r =>
        if closed then r.closeTag name else return r := by
  rw [tagToken, step, String.ofList_toList]

theorem openJoin_written (j : Join) :
    r.openJoin (attributesText (joinAttributes j)).toList =
      .ok { r with draft := some (openedBy j) } := by
  have hcardinality : ((joinAttributes j).lookup "toMany").mapM Cardinality.parse =
      .ok (some j.cardinality) := by
    change Cardinality.parse j.cardinality.word >>= _ = _
    rw [parse_word_cardinality]
    rfl
  have hdependent : ((joinAttributes j).lookup "toDependentPK").mapM DependentKey.parse =
      .ok (some j.dependentKey) := by
    change DependentKey.parse j.dependentKey.word >>= _ = _
    rw [parse_word_dependentKey]
    rfl
  rw [openJoin, readAttributes_written (wellKeyed_joinAttributes j)]
  change ((joinAttributes j).lookup "toMany").mapM Cardinality.parse >>= _ = _
  rw [hcardinality]
  change ((joinAttributes j).lookup "toDependentPK").mapM DependentKey.parse >>= _ = _
  rw [hdependent]
  rfl

theorem step_join (j : Join) :
    r.step (tagToken "join" (joinAttributes j) false) =
      .ok { r with draft := some (openedBy j) } := by
  rw [step_tagToken]
  change r.openJoin _ >>= _ = _
  rw [openJoin_written]
  rfl

theorem openEndpoint_written {d : Draft} (hd : r.draft = some d) (j : Join) (s : Side) :
    r.openEndpoint s (attributesText (endpointAttributes j s)).toList =
      .ok { r with draft := some (withEndpoint d j s) } := by
  have hentity : (endpointAttributes j s).lookup "entity" = some (j.entity s) := rfl
  have hname : (endpointAttributes j s).lookup "name" = j.declaredName? s := by
    unfold endpointAttributes
    cases j.declaredName? s <;> rfl
  unfold openEndpoint
  simp only [hd, readAttributes_written (wellKeyed_endpointAttributes j s), requireAttribute,
    hentity, hname, bind, Except.bind]
  cases s <;> rfl

theorem step_endpoint {d : Draft} (hd : r.draft = some d) (j : Join) (s : Side) :
    r.step (endpointToken j s) = .ok { r with draft := some (withEndpoint d j s) } := by
  rw [endpointToken, step_tagToken]
  cases s with
  | left =>
    change r.openEndpoint .left _ >>= _ = _
    rw [openEndpoint_written r hd]
    rfl
  | right =>
    change r.openEndpoint .right _ >>= _ = _
    rw [openEndpoint_written r hd]
    rfl

theorem step_pair {d : Draft} (hd : r.draft = some d) (pair : ColumnPair) :
    r.step (pairToken pair) =
      .ok { r with draft := some { d with pairs := d.pairs ++ [pair] } } := by
  have hopen : r.openPair (attributesText (pairAttributes pair)).toList =
      .ok { r with draft := some { d with pairs := d.pairs ++ [pair] } } := by
    unfold openPair
    simp only [hd, readAttributes_written (wellKeyed_pairAttributes pair)]
    rfl
  rw [pairToken, step_tagToken]
  change r.openPair _ >>= _ = _
  rw [hopen]
  rfl

/-- The pairs of a join are read in their order. -/
theorem foldlM_pairs {d : Draft} (hd : r.draft = some d) (pairs : List ColumnPair) :
    (pairs.map pairToken).foldlM step r =
      .ok { r with draft := some { d with pairs := d.pairs ++ pairs } } := by
  induction pairs generalizing r d with
  | nil =>
    rw [List.append_nil, ← hd]
    rfl
  | cons pair pairs ih =>
    rw [List.map_cons, List.foldlM_cons, step_pair r hd]
    change (pairs.map pairToken).foldlM step _ = _
    rw [ih _ rfl, List.append_assoc, List.singleton_append]

theorem foldlM_joinContent {d : Draft} (hd : r.draft = some d) (j : Join) :
    (joinContent j).foldlM step r = .ok { r with draft := some (filledBy d j) } := by
  change (endpointToken j .left :: endpointToken j .right ::
    j.condition.pairs.map pairToken).foldlM step r = _
  rw [List.foldlM_cons, step_endpoint r hd]
  change (endpointToken j .right :: j.condition.pairs.map pairToken).foldlM step _ = _
  rw [List.foldlM_cons, step_endpoint _ rfl]
  change (j.condition.pairs.map pairToken).foldlM step _ = _
  rw [foldlM_pairs _ rfl]
  rfl

theorem finish_filledBy (j : Join) : (filledBy (openedBy j) j).finish = j.reread := by
  have hleft : (j.declaredName? .left).or none = j.declaredName? .left := Option.or_none
  have hright : (j.declaredName? .right).or none = j.declaredName? .right := Option.or_none
  simp only [filledBy, withEndpoint, openedBy, hleft, hright]
  rfl

theorem step_closeJoin {d : Draft} (hd : r.draft = some d) :
    r.step (.closing "join".toList) =
      d.finish.map fun k => { r with joins := r.joins ++ [k], draft := none } := by
  rw [step, String.ofList_toList]
  unfold closeTag
  rw [hd]
  rfl

/-- The tags of a join become the join of its declared parts, behind those that were read before,
    or they are refused as it is. -/
theorem foldlM_joinTokens (before : List Join) (j : Join) :
    (joinTokens j).foldlM step { joins := before } =
      j.reread.map fun k => { joins := before ++ [k] } := by
  rw [joinTokens, List.cons_append, List.foldlM_cons, step_join]
  change (joinContent j ++ [Token.closing "join".toList]).foldlM step _ = _
  rw [List.foldlM_append, foldlM_joinContent _ rfl, ← finish_filledBy j]
  change step _ (Token.closing "join".toList) >>= pure = _
  rw [bind_pure, step_closeJoin _ rfl]

/-- The run over all joins: they are read in their order, up to the first that is refused. -/
theorem foldlM_joins (before js : List Join) :
    (js.flatMap joinTokens).foldlM step { joins := before } =
      (js.mapM Join.reread).map fun ks => { joins := before ++ ks } := by
  induction js generalizing before with
  | nil =>
    exact congrArg (fun ks : List Join => Except.ok ({ joins := ks } : Reading))
      (List.append_nil before).symm
  | cons j js ih =>
    rw [List.flatMap_cons, List.foldlM_append, foldlM_joinTokens, List.mapM_cons]
    cases j.reread with
    | error e => rfl
    | ok k =>
      change (js.flatMap joinTokens).foldlM step { joins := before ++ [k] } = _
      rw [ih]
      simp only [List.append_assoc, List.singleton_append]
      cases js.mapM Join.reread <;> rfl

end Reading

/-- Reading what was written makes of each join the join of its declared parts. -/
theorem read_write (js : List Join) : read (write js) = js.mapM Join.reread := by
  have hjoins := Reading.foldlM_joins [] js
  have hfinish : ∀ ks, Reading.finish { joins := ks } = .ok ks := by
    intro ks
    rw [Reading.finish, Directed.toJoins]
    change Except.ok (ks ++ []) = Except.ok ks
    rw [List.append_nil]
  rw [read, tokens_write, (balanced_fileTokens js).checkNesting_nil, fileTokens, List.cons_append,
    List.foldlM_cons]
  change (js.flatMap joinTokens ++ [Token.closing "joins".toList]).foldlM Reading.step {} >>= _ = _
  rw [List.foldlM_append, hjoins]
  cases js.mapM Join.reread with
  | error e => rfl
  | ok ks => exact hfinish ks

theorem mapM_reread_of_isStorable {js : List Join} (h : ∀ j ∈ js, j.IsStorable) :
    js.mapM Join.reread = .ok (js.map Join.stored) :=
  mapM_eq_ok.2 (List.forall₂_map_right_iff.2 (List.forall₂_same.2 fun j hj =>
    Join.reread_of_isStorable (h j hj)))

theorem mapM_reread_of_not_isStorable {js : List Join} (h : ∃ j ∈ js, ¬ j.IsStorable) :
    ∃ fault, js.mapM Join.reread = .error (.configuration fault) := by
  induction js with
  | nil =>
    obtain ⟨j, hj, -⟩ := h
    cases hj
  | cons j js ih =>
    rw [List.mapM_cons]
    by_cases hj : j.IsStorable
    · have hlater : ∃ k ∈ js, ¬ k.IsStorable := by
        obtain ⟨k, hk, hnot⟩ := h
        exact ⟨k, (List.mem_cons.1 hk).resolve_left fun heq => hnot (heq ▸ hj), hnot⟩
      obtain ⟨fault, hfault⟩ := ih hlater
      rw [Join.reread_of_isStorable hj, hfault]
      exact ⟨fault, rfl⟩
    · obtain ⟨fault, hfault⟩ := Join.reread_of_not_isStorable hj
      rw [hfault]
      exact ⟨fault, rfl⟩

/-- A file gives back the joins it was written from, as it keeps them, if each of them can be read;
    and it is refused if one of them has no table name or no columns. -/
theorem read_write_joins (js : List Join) :
    ((∀ j ∈ js, j.IsStorable) → read (write js) = .ok (js.map Join.stored)) ∧
      ((∃ j ∈ js, ¬ j.IsStorable) →
        ∃ fault, read (write js) = .error (.configuration fault)) := by
  rw [read_write]
  exact ⟨mapM_reread_of_isStorable, mapM_reread_of_not_isStorable⟩

/-- A join whose names hold what markup has to escape, with one made-up name and a list of one pair
    of columns. -/
def quotedJoin (left : String) : Join where
  entities := ⟨left, "Größe\n<b>"⟩
  names := ⟨some "it's &quot;", some "to_a"⟩
  synthesized := ⟨false, true⟩
  cardinality := .manyToMany
  dependentKey := .right
  condition := .composite [⟨"x > \"y\"", "\t"⟩]

theorem read_write_joins_quoted :
    read (write [quotedJoin "A & B"]) = .ok [{ quotedJoin "A & B" with
      names := ⟨some "it's &quot;", none⟩
      synthesized := ⟨false, false⟩
      condition := .single ⟨"x > \"y\"", "\t"⟩ }] ∧
      ∃ fault, read (write [quotedJoin "A & B", quotedJoin " "]) =
        .error (.configuration fault) := by
  have hstorable : (quotedJoin "A & B").IsStorable :=
    ⟨fun s => by cases s <;> decide, List.cons_ne_nil _ _⟩
  have hblank : ¬ (quotedJoin " ").IsStorable := fun h => absurd (h.entities .left) (by decide)
  constructor
  · exact (read_write_joins [quotedJoin "A & B"]).1 (List.forall_mem_singleton.2 hstorable)
  · exact (read_write_joins _).2 ⟨_, List.mem_cons_of_mem _ List.mem_cons_self, hblank⟩

end JoinFile

end SchemaDrift
