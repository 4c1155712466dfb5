/-
  SchemaDrift/Proofs/JoinElements.lean
  ====================================
  **Which join tags of a file become joins.**

  A join tag starts an element that ends with the next closing tag of a join, provided
  that no other join is opened before (`joinElement?`).  The joins that are read are those
  of the elements, in their order, and each is the join that the reader makes of its
  element alone (`elements_of_foldlM`).  The proof goes through the tags with the part of
  the open element that was read so far (`Opened`); what was read before it only stays in
  front of what follows (`step_behind`).

  So a join that stands in the file twice is read twice, and one that is closed before it
  is complete fails the reading.  But a join that is still open where another one is opened,
  or at the end of the file, is passed over: it is not even looked at what it lacks
  (`read_cutOff`).  Main statement: `read_elements`.
-/
import Mathlib.Data.List.Infix
import SchemaDrift.JoinFile.Read
import SchemaDrift.Proofs.Outcome

namespace SchemaDrift

namespace Markup

/-! ### Tags by their names -/

/-- Whether a tag opens an element of a name. -/
def Token.opens (name : String) : Token → Bool
  | .opening tag _ _ => String.ofList tag == name
  | _ => false

/-- Whether a tag closes an element of a name; a tag that closes itself does. -/
def Token.closes (name : String) : Token → Bool
  | .opening tag _ closed => closed && String.ofList tag == name
  | .closing tag => String.ofList tag == name
  | .malformed => false

/-- The check of the nesting changes nothing where it finds no fault. -/
theorem checkNesting_of_malformed_notMem {opened : List (List Char)} {ts : List Token}
    (h : Token.malformed ∉ checkNesting opened ts) : checkNesting opened ts = ts := by
  induction ts generalizing opened with
  | nil => rfl
  | cons t ts ih =>
    cases t with
    | opening name rest closed =>
      rw [checkNesting] at h ⊢
      rw [ih (List.not_mem_of_not_mem_cons h)]
    | closing name =>
      unfold checkNesting at h ⊢
      cases opened with
      | nil => exact absurd List.mem_cons_self h
      | cons innermost outer =>
        dsimp only at h ⊢
        split at h
        next heq =>
          rw [if_pos heq, ih (List.not_mem_of_not_mem_cons h)]
        next => exact absurd List.mem_cons_self h
    | malformed => exact absurd List.mem_cons_self h

end Markup

namespace JoinFile

open Markup

/-! ### Elements of joins -/

/-- The tags up to the one that closes a join, unless another join is opened before. -/
def throughClosing : List Token → Option (List Token)
  | [] => none
  | t :: ts =>
    if t.opens "join" then none
    else if t.closes "join" then some [t]
    else (throughClosing ts).map (t :: ·)

/-- The element of the join that the first tag opens, if it is closed. -/
def joinElement? : List Token → Option (List Token)
  | [] => none
  | t :: ts =>
    if t.opens "join" then
      if t.closes "join" then some [t] else (throughClosing ts).map (t :: ·)
    else none

def joinElements (ts : List Token) : List (List Token) := ts.tails.filterMap joinElement?

/-- Whether the first tag opens a join that is still open where the next join is opened, or where
    the tags end. -/
def leftOpen : List Token → Bool
  | [] => false
  | t :: ts =>
    t.opens "join" && !t.closes "join" &&
      (ts.find? fun u => u.opens "join" || u.closes "join").all (·.opens "join")

theorem joinElements_cons (t : Token) (ts : List Token) :
    joinElements (t :: ts) = (joinElement? (t :: ts)).toList ++ joinElements ts := by
  rw [joinElements, List.tails_cons, List.filterMap_cons]
  cases joinElement? (t :: ts) <;> rfl

theorem isNone_throughClosing (ts : List Token) :
    (throughClosing ts).isNone =
      (ts.find? fun u => u.opens "join" || u.closes "join").all (·.opens "join") := by
  induction ts with
  | nil => rfl
  | cons t ts ih =>
    rw [throughClosing, List.find?_cons]
    cases hopens : t.opens "join" with
    | true => simp [hopens]
    | false =>
      cases hcloses : t.closes "join" with
      | true => simp [hopens]
      | false => simpa using ih

/-- A tag that opens a join has an element or is left open. -/
theorem length_joinElements_add (ts : List Token) :
    (joinElements ts).length + ts.tails.countP leftOpen = ts.countP (·.opens "join") := by
  induction ts with
  | nil => rfl
  | cons t ts ih =>
    have hone : (joinElement? (t :: ts)).toList.length + (if leftOpen (t :: ts) then 1 else 0) =
        if t.opens "join" then 1 else 0 := by
      rw [joinElement?, leftOpen, ← isNone_throughClosing]
      cases t.opens "join" <;> cases t.closes "join" <;> cases throughClosing ts <;> rfl
    rw [joinElements_cons, List.tails_cons, List.countP_cons, List.countP_cons, List.length_append]
    omega

/-! ### What was read before -/

namespace Reading

/-- A reading behind some joins that were read before. -/
def behind (joins : List Join) (r : Reading) : Reading := { r with joins := joins ++ r.joins }

section Behind

variable (joins : List Join) (r : Reading)

theorem openTag_behind (name : String) (rest : List Char) :
    (r.behind joins).openTag name rest = behind joins <$> r.openTag name rest := by
  obtain ⟨read, directions, draft, direction⟩ := r
  have hendpoint : ∀ s, (behind joins ⟨read, directions, draft, direction⟩).openEndpoint s rest =
      behind joins <$> openEndpoint ⟨read, directions, draft, direction⟩ s rest := by
    intro s
    simp only [openEndpoint, behind]
    cases draft with
    | none => rfl
    | some d =>
      simp only [map_bind]
      rfl
  unfold openTag
  split
  · simp only [openJoin, map_bind]
    rfl
  · exact hendpoint .left
  · exact hendpoint .right
  · simp only [openPair, behind]
    cases draft with
    | none => rfl
    | some d =>
      simp only [map_bind]
      rfl
  · simp only [openDirection, map_bind]
    rfl
  · simp only [openDirectedPair, behind]
    cases direction with
    | none => rfl
    | some d =>
      simp only [map_bind]
      rfl
  · rfl

theorem closeTag_behind (name : String) :
    (r.behind joins).closeTag name = behind joins <$> r.closeTag name := by
  obtain ⟨read, directions, draft, direction⟩ := r
  unfold closeTag behind
  dsimp only
  split
  next d =>
    cases d.finish with
    | error e => rfl
    | ok j => simp [Except.map, Functor.map]
  next => rfl
  next => rfl

/-- A step takes no notice of the joins that were read before. -/
theorem step_behind (t : Token) : (r.behind joins).step t = behind joins <$> r.step t := by
  cases t with
  | opening tag rest closed =>
    simp only [step, openTag_behind, bind_map_left, map_bind]
    refine bind_congr fun r' => ?_
    split
    · exact closeTag_behind joins r' _
    · rfl
  | closing tag => exact closeTag_behind joins r _
  | malformed => rfl

theorem foldlM_behind (ts : List Token) :
    ts.foldlM step (r.behind joins) = behind joins <$> ts.foldlM step r := by
  induction ts generalizing r with
  | nil => rfl
  | cons t ts ih =>
    rw [List.foldlM_cons, List.foldlM_cons, step_behind, bind_map_left, map_bind]
    exact bind_congr ih

end Behind

/-! ### One step -/

section Step

variable {draft : Option Draft} {t : Token} {x : Reading}

theorem openJoin_eq_ok {rest : List Char} (h : openJoin {} rest = .ok x) :
    ∃ d, x = { draft := some d } := by
  simp only [openJoin, bind_eq_ok] at h
  obtain ⟨attributes, -, cardinality, -, dependentKey, -, hx⟩ := h
  exact ⟨_, (pure_eq_ok.1 hx).symm⟩

theorem closeJoin_eq_ok {d : Draft} (h : closeTag { draft := some d } "join" = .ok x) :
    ∃ j, x = { joins := [j] } := by
  obtain ⟨j, -, hx⟩ := map_eq_ok.1 h
  exact ⟨j, hx.symm⟩

/-- A tag that opens a join starts afresh. -/
theorem step_opens (h : t.opens "join" = true) : step { draft } t = step {} t := by
  cases t with
  | opening tag rest closed =>
    rw [step, step, eq_of_beq h]
    rfl
  | closing tag => cases h
  | malformed => cases h

theorem step_opens_eq_ok (h : t.opens "join" = true) (hx : step {} t = .ok x) :
    if t.closes "join" then ∃ j, x = { joins := [j] } else ∃ d, x = { draft := some d } := by
  cases t with
  | opening tag rest closed =>
    have hname : String.ofList tag = "join" := eq_of_beq h
    rw [step, hname] at hx
    obtain ⟨y, hy, hx⟩ := bind_eq_ok.1 hx
    obtain ⟨d, rfl⟩ := openJoin_eq_ok hy
    rw [Token.closes, hname]
    cases closed with
    | false => exact ⟨d, (pure_eq_ok.1 hx).symm⟩
    | true => exact closeJoin_eq_ok hx
  | closing tag => cases h
  | malformed => cases h

theorem step_closes_eq_ok (hopens : t.opens "join" = false) (h : t.closes "join" = true)
    (hx : step { draft } t = .ok x) :
    match draft with
    | none => x = {}
    | some _ => ∃ j, x = { joins := [j] } := by
  cases t with
  | opening tag rest closed =>
    rw [Token.closes, show (String.ofList tag == "join") = false from hopens] at h
    simp at h
  | closing tag =>
    rw [step, eq_of_beq h] at hx
    cases draft with
    | none => exact (Except.ok.inj hx).symm
    | some d => exact closeJoin_eq_ok hx
  | malformed => cases h

/-- A tag that is not one of a join has an effect on the open join alone, if any. -/
theorem openTag_eq_ok {name : String} {rest : List Char} (hjoin : name ≠ "join")
    (hundirected : name ≠ "db-relationship") (h : openTag { draft } name rest = .ok x) :
    ∃ draft', x = { draft := draft' } ∧ draft'.isSome = draft.isSome := by
  have hendpoint : ∀ s, openEndpoint { draft } s rest = .ok x →
      ∃ draft', x = { draft := draft' } ∧ draft'.isSome = draft.isSome := by
    intro s h
    unfold openEndpoint at h
    cases draft with
    | none => exact ⟨none, (pure_eq_ok.1 h).symm, rfl⟩
    | some d =>
      simp only [bind_eq_ok] at h
      obtain ⟨attributes, -, entity, -, hx⟩ := h
      exact ⟨_, (pure_eq_ok.1 hx).symm, rfl⟩
  unfold openTag at h
  split at h
  next => exact absurd rfl hjoin
  next => exact hendpoint .left h
  next => exact hendpoint .right h
  next =>
    unfold openPair at h
    cases draft with
    | none => exact ⟨none, (pure_eq_ok.1 h).symm, rfl⟩
    | some d =>
      simp only [bind_eq_ok] at h
      obtain ⟨attributes, -, left, -, right, -, hx⟩ := h
      exact ⟨_, (pure_eq_ok.1 hx).symm, rfl⟩
  next => exact absurd rfl hundirected
  next => exact ⟨draft, (pure_eq_ok.1 h).symm, rfl⟩
  next => exact ⟨draft, (Except.ok.inj h).symm, rfl⟩

theorem closeTag_other {name : String} (hjoin : name ≠ "join") :
    closeTag { draft } name = .ok { draft } := by
  unfold closeTag
  split
  next => exact absurd rfl hjoin
  next heq => cases heq
  next => rfl

theorem step_other_eq_ok (hopens : t.opens "join" = false) (hcloses : t.closes "join" = false)
    (hundirected : t.opens "db-relationship" = false) (hx : step { draft } t = .ok x) :
    ∃ draft', x = { draft := draft' } ∧ draft'.isSome = draft.isSome := by
  cases t with
  | opening tag rest closed =>
    have hjoin : String.ofList tag ≠ "join" := ne_of_beq_false hopens
    obtain ⟨y, hy, hx⟩ := bind_eq_ok.1 hx
    obtain ⟨draft', rfl, hdraft⟩ := openTag_eq_ok hjoin (ne_of_beq_false hundirected) hy
    refine ⟨draft', ?_, hdraft⟩
    cases closed with
    | false => exact (pure_eq_ok.1 hx).symm
    | true => exact (Except.ok.inj ((closeTag_other hjoin).symm.trans hx)).symm
  | closing tag =>
    have hjoin : String.ofList tag ≠ "join" := ne_of_beq_false hcloses
    exact ⟨draft, (Except.ok.inj ((closeTag_other hjoin).symm.trans hx)).symm, rfl⟩
  | malformed => cases hx

end Step

/-! ### All steps -/

/-- The reader makes a join of the tags of an element. -/
def Makes (element : List Token) (j : Join) : Prop := element.foldlM step {} = .ok { joins := [j] }

theorem foldlM_snoc {part : List Token} {t : Token} {r : Reading}
    (h : part.foldlM step {} = .ok r) : (part ++ [t]).foldlM step {} = r.step t := by
  rw [List.foldlM_append, h]
  exact bind_pure (r.step t)

/-- How far the reader is when some tags of the open element were read. -/
inductive Opened : Option (List Token) → Option Draft → Prop
  | outside : Opened none none
  | inside {part : List Token} {d : Draft} (h : part.foldlM step {} = .ok { draft := some d }) :
    Opened (some part) (some d)

/-- The element of which some tags were read, if it is closed among the tags that follow. -/
def openElement? (part : Option (List Token)) (ts : List Token) : Option (List Token) :=
  part.bind fun part => (throughClosing ts).map (part ++ ·)

theorem openElement?_of_opens (part : Option (List Token)) {t : Token} (ts : List Token)
    (h : t.opens "join" = true) : openElement? part (t :: ts) = none := by
  cases part <;> simp [openElement?, throughClosing, h]

theorem openElement?_of_closes (part : Option (List Token)) {t : Token} (ts : List Token)
    (hopens : t.opens "join" = false) (h : t.closes "join" = true) :
    openElement? part (t :: ts) = part.map (· ++ [t]) := by
  cases part <;> simp [openElement?, throughClosing, hopens, h]

theorem openElement?_of_other (part : Option (List Token)) {t : Token} (ts : List Token)
    (hopens : t.opens "join" = false) (hcloses : t.closes "join" = false) :
    openElement? part (t :: ts) = openElement? (part.map (· ++ [t])) ts := by
  cases part <;> simp [openElement?, throughClosing, hopens, hcloses, Function.comp_def]

theorem joinElements_of_not_opens {t : Token} (ts : List Token) (h : t.opens "join" = false) :
    joinElements (t :: ts) = joinElements ts := by
  rw [joinElements_cons, joinElement?, h]
  rfl

/-- What follows a join that was made is read as if nothing stood before it. -/
theorem foldlM_after_join {ts : List Token} {j : Join} {r : Reading}
    (h : ts.foldlM step { joins := [j] } = .ok r) :
    ∃ r', ts.foldlM step {} = .ok r' ∧ r = r'.behind [j] := by
  have hframe : ts.foldlM step { joins := [j] } = behind [j] <$> ts.foldlM step {} :=
    foldlM_behind [j] {} ts
  obtain ⟨r', hr', hr⟩ := map_eq_ok.1 (hframe.symm.trans h)
  exact ⟨r', hr', hr.symm⟩

/-- The run: every element becomes the join that is made of it alone, the one that is open
    first. -/
theorem elements_of_foldlM {ts : List Token} {part : Option (List Token)} {draft : Option Draft}
    {r : Reading} (hopened : Opened part draft)
    (hundirected : ∀ t ∈ ts, t.opens "db-relationship" = false)
    (hrun : ts.foldlM step { draft } = .ok r) :
    r.directions = [] ∧
      List.Forall₂ Makes ((openElement? part ts).toList ++ joinElements ts) r.joins := by
  induction ts generalizing part draft r with
  | nil =>
    have hr : r = { draft } := (pure_eq_ok.1 hrun).symm
    have hnone : openElement? part [] = none := by cases part <;> rfl
    rw [hr, hnone]
    exact ⟨rfl, .nil⟩
  | cons t ts ih =>
    obtain ⟨hheadUndirected, htailUndirected⟩ := List.forall_mem_cons.1 hundirected
    rw [List.foldlM_cons] at hrun
    obtain ⟨x, hx, hrest⟩ := bind_eq_ok.1 hrun
    cases hopens : t.opens "join" with
    | true =>
      -- whatever is open is given up here
      rw [openElement?_of_opens part ts hopens, joinElements_cons, joinElement?, if_pos hopens]
      rw [step_opens hopens] at hx
      have hone : [t].foldlM step {} = .ok x := (bind_pure (step {} t)).trans hx
      have hcases := step_opens_eq_ok hopens hx
      cases hcloses : t.closes "join" with
      | true =>
        rw [hcloses] at hcases
        obtain ⟨j, rfl⟩ := hcases
        obtain ⟨r', hr', rfl⟩ := foldlM_after_join hrest
        obtain ⟨hdirections, hmade⟩ := ih .outside htailUndirected hr'
        exact ⟨hdirections, .cons hone hmade⟩
      | false =>
        rw [hcloses] at hcases
        obtain ⟨d, rfl⟩ := hcases
        exact ih (.inside hone) htailUndirected hrest
    | false =>
      rw [joinElements_of_not_opens ts hopens]
      cases hcloses : t.closes "join" with
      | true =>
        rw [openElement?_of_closes part ts hopens hcloses]
        have hcases := step_closes_eq_ok hopens hcloses hx
        cases hopened with
        | outside =>
          have hx' : x = {} := hcases
          exact ih .outside htailUndirected (hx' ▸ hrest)
        | inside hpart =>
          obtain ⟨j, rfl⟩ := hcases
          obtain ⟨r', hr', rfl⟩ := foldlM_after_join hrest
          obtain ⟨hdirections, hmade⟩ := ih .outside htailUndirected hr'
          exact ⟨hdirections, .cons ((foldlM_snoc hpart).trans hx) hmade⟩
      | false =>
        rw [openElement?_of_other part ts hopens hcloses]
        obtain ⟨draft', rfl, hdraft⟩ := step_other_eq_ok hopens hcloses hheadUndirected hx
        cases hopened with
        | outside =>
          have hdraft' : draft' = none := by simpa using hdraft
          exact ih .outside htailUndirected (hdraft' ▸ hrest)
        | inside hpart =>
          obtain ⟨d', rfl⟩ := Option.isSome_iff_exists.1 hdraft
          exact ih (.inside ((foldlM_snoc hpart).trans hx)) htailUndirected hrest

theorem malformed_notMem_of_foldlM {ts : List Token} {r r' : Reading}
    (h : ts.foldlM step r = .ok r') : Token.malformed ∉ ts := by
  intro hmem
  obtain ⟨before, after, rfl⟩ := List.append_of_mem hmem
  rw [List.foldlM_append] at h
  obtain ⟨x, -, hx⟩ := bind_eq_ok.1 h
  cases hx

end Reading

/-- **Of a file that is read, the joins are those of the elements**, each as the reader makes it of
    its element alone.  So as many joins are read as there are tags that open one, less those that
    are still open where the next join is opened, or at the end. -/
theorem read_elements {text : String} {js : List Join} (h : read text = .ok js)
    (hundirected : ∀ t ∈ tokens text, t.opens "db-relationship" = false) :
    List.Forall₂ Reading.Makes (joinElements (tokens text)) js ∧
      js.length + (tokens text).tails.countP leftOpen =
        (tokens text).countP (·.opens "join") := by
  obtain ⟨r, hrun, hfinish⟩ := bind_eq_ok.1 h
  rw [checkNesting_of_malformed_notMem (Reading.malformed_notMem_of_foldlM hrun)] at hrun
  obtain ⟨hdirections, hmade⟩ := Reading.elements_of_foldlM .outside hundirected hrun
  have hjoins : r.joins = js := by
    rw [Reading.finish, hdirections, Directed.toJoins] at hfinish
    exact (List.append_nil r.joins).symm.trans (Except.ok.inj hfinish)
  have hmade' : List.Forall₂ Reading.Makes (joinElements (tokens text)) js := hjoins ▸ hmade
  refine ⟨hmade', ?_⟩
  rw [← hmade'.length_eq]
  exact length_joinElements_add (tokens text)

/-- A complete join, in a join that says nothing. -/
def nestedText : String :=
  "<join><join toMany='ONE_TO_ONE' toDependentPK='NONE'><left entity='A'/><right entity='B'/>" ++
    "<column-pair left='C' right='D'/></join></join>"

def nestedTokens : List Token :=
  [tag "join" "" false, tag "join" " toMany='ONE_TO_ONE' toDependentPK='NONE'" false,
   tag "left" " entity='A'" true, tag "right" " entity='B'" true,
   tag "column-pair" " left='C' right='D'" true,
   .closing "join".toList, .closing "join".toList]
where
  tag (name rest : String) (closed : Bool) : Token := .opening name.toList rest.toList closed

theorem read_elements_nested :
    ∃ j, read nestedText = .ok [j] ∧ (joinElements (tokens nestedText)).length = 1 ∧
      (tokens nestedText).countP (·.opens "join") = 2 := by
  have htokens : tokens nestedText = nestedTokens := by decide +kernel
  have hread : read nestedText = .ok [{
      entities := ⟨"A", "B"⟩
      names := ⟨none, none⟩
      cardinality := .oneToOne
      dependentKey := .none
      condition := .single ⟨"C", "D"⟩ }] := by
    rw [read, htokens]
    decide +kernel
  have hundirected : ∀ t ∈ tokens nestedText, t.opens "db-relationship" = false := by
    rw [htokens]
    decide +kernel
  have hleft : (tokens nestedText).tails.countP leftOpen = 1 := by
    rw [htokens]
    decide +kernel
  obtain ⟨hmade, hcount⟩ := read_elements hread hundirected
  refine ⟨_, hread, hmade.length_eq, ?_⟩
  rw [← hcount, hleft]
  rfl

/-- A join that the file breaks off is passed over, though it lacks both tables. -/
theorem read_cutOff :
    ¬ ∀ text js, read text = .ok js →
      (∀ t ∈ tokens text, t.opens "db-relationship" = false) →
      js.length = (tokens text).countP (·.opens "join") := by
  intro h
  have hcount := h "<joins><join toMany=\"ONE_TO_MANY\">" [] (by decide +kernel)
    (by decide +kernel)
  revert hcount
  decide +kernel

end JoinFile

end SchemaDrift
