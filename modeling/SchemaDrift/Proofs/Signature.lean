/-
  SchemaDrift/Proofs/Signature.lean
  =================================
  **What a signature still knows of its join.**

  A signature is one text, so two joins could share it by an accident of punctuation:
  a table named `A.B` with a column `C` reads like a table `A` with a column `B.C`.
  Names without `.`, `>` and `;` exclude this.  For joins of such names over at least
  one pair the fragments can be read off the signature (`fragments_eq_of_signature_eq`)
  and the two ends of a pair off its fragment (`ends_eq_of_text_eq`).  So joins with
  one signature have the same two tables, in one order or the other
  (`entities_of_signature_eq`), and every pair of columns of one is a pair of the
  other, possibly turned round (`exists_ends_of_signature_eq`).

  The other way round the signature depends on folded names only
  (`SpelledAs.signature_eq`).
-/
import SchemaDrift.Join.Signature
import SchemaDrift.Proofs.Name

namespace SchemaDrift

namespace Join

/-- The names that a join is made of: its tables, and the columns of its pairs. -/
def identifiers (j : Join) : List String :=
  j.entities.toList ++ j.condition.pairs.flatMap Sides.toList

/-- Whether all names of a join are free of the punctuation of signatures. -/
def IsPlain (j : Join) : Prop := ∀ name ∈ j.identifiers, isPlain name = true

instance (j : Join) : Decidable j.IsPlain := inferInstanceAs (Decidable (∀ _ ∈ _, _))

theorem IsPlain.entity {j : Join} (h : j.IsPlain) (s : Side) : isPlain (j.entity s) = true :=
  h _ (List.mem_append_left _ (Sides.mem_toList.2 ⟨s, rfl⟩))

theorem IsPlain.pair {j : Join} (h : j.IsPlain) {pair : ColumnPair}
    (hpair : pair ∈ j.condition.pairs) (s : Side) : isPlain (pair.get s) = true := by
  have hmem : pair.get s ∈ pair.toList := Sides.mem_toList.2 ⟨s, rfl⟩
  exact h _ (List.mem_append_right _ (List.mem_flatMap.2 ⟨pair, hpair, hmem⟩))

/-- A join whose parts can be read off its signature. -/
structure Legible (j : Join) : Prop where
  plain : j.IsPlain
  paired : j.condition.pairs ≠ []

/-! ### The ends of a pair -/

/-- The two ends of a pair, each a folded table with a folded column, in the order in which a
    fragment names them. -/
def ends (left right : String) (pair : ColumnPair) : Sides (String × String) :=
  if left < right ∨ (left = right ∧ foldName pair.left ≤ foldName pair.right) then
    ⟨(left, foldName pair.left), (right, foldName pair.right)⟩
  else ⟨(right, foldName pair.right), (left, foldName pair.left)⟩

def endsText (e : Sides (String × String)) : String :=
  fragmentText e.left.1 e.left.2 e.right.1 e.right.2

theorem fragment_eq_endsText (left right : String) (pair : ColumnPair) :
    fragment left right pair = endsText (ends left right pair) := by
  rw [fragment, ends]
  split <;> rfl

structure PlainEnds (e : Sides (String × String)) : Prop where
  lowTable : isPlain e.left.1 = true
  lowColumn : isPlain e.left.2 = true
  highTable : isPlain e.right.1 = true
  highColumn : isPlain e.right.2 = true

theorem toList_endsText (e : Sides (String × String)) :
    (endsText e).toList = e.left.1.toList ++ '.' :: (e.left.2.toList ++ '>' ::
      (e.right.1.toList ++ '.' :: e.right.2.toList)) := by
  simp [endsText, fragmentText]

/-- What stands before the first of two equal separators, and what stands after it. -/
theorem split_at_separator {c : Char} {as bs as' bs' : List Char} (h : c ∉ as) (h' : c ∉ as')
    (heq : as ++ c :: bs = as' ++ c :: bs') : as = as' ∧ bs = bs' := by
  induction as generalizing as' with
  | nil =>
    cases as' with
    | nil => exact ⟨rfl, (List.cons.inj heq).2⟩
    | cons a' as' => exact absurd (by simp [(List.cons.inj heq).1]) h'
  | cons a as ih =>
    cases as' with
    | nil => exact absurd (by simp [(List.cons.inj heq).1]) h
    | cons a' as' =>
      obtain ⟨hhead, htail⟩ := List.cons.inj heq
      obtain ⟨has, hbs⟩ := ih (fun hc => h (.tail a hc)) (fun hc => h' (.tail a' hc)) htail
      exact ⟨by rw [hhead, has], hbs⟩

theorem ends_eq_of_text_eq {d e : Sides (String × String)} (hd : PlainEnds d) (he : PlainEnds e)
    (h : endsText d = endsText e) : d = e := by
  have htext := congrArg String.toList h
  rw [toList_endsText, toList_endsText] at htext
  have hfree : ∀ {name : String} {c : Char}, isPlain name = true → isPunctuation c = true →
      c ∉ name.toList := fun hname hc => notMem_of_isPlain hname hc
  obtain ⟨hlowTable, htext⟩ :=
    split_at_separator (hfree hd.lowTable rfl) (hfree he.lowTable rfl) htext
  obtain ⟨hlowColumn, htext⟩ :=
    split_at_separator (hfree hd.lowColumn rfl) (hfree he.lowColumn rfl) htext
  obtain ⟨hhighTable, hhighColumn⟩ :=
    split_at_separator (hfree hd.highTable rfl) (hfree he.highTable rfl) htext
  have hlow : d.left = e.left :=
    Prod.ext (String.toList_injective hlowTable) (String.toList_injective hlowColumn)
  have hhigh : d.right = e.right :=
    Prod.ext (String.toList_injective hhighTable) (String.toList_injective hhighColumn)
  cases d; cases e; simp_all

/-- Pairs with the same ends are the same pair, or the one is the other turned round. -/
theorem pair_of_ends_eq {left right left' right' : String} {p q : ColumnPair}
    (h : ends left right p = ends left' right' q) :
    (left = left' ∧ right = right' ∧
        foldName p.left = foldName q.left ∧ foldName p.right = foldName q.right) ∨
      (left = right' ∧ right = left' ∧
        foldName p.left = foldName q.right ∧ foldName p.right = foldName q.left) := by
  rw [ends, ends] at h
  split at h
  · split at h
    · obtain ⟨⟨hleft, hleftColumn⟩, hright, hrightColumn⟩ := by
        simpa only [Sides.mk.injEq, Prod.mk.injEq] using h
      exact .inl ⟨hleft, hright, hleftColumn, hrightColumn⟩
    · obtain ⟨⟨hleft, hleftColumn⟩, hright, hrightColumn⟩ := by
        simpa only [Sides.mk.injEq, Prod.mk.injEq] using h
      exact .inr ⟨hleft, hright, hleftColumn, hrightColumn⟩
  · split at h
    · obtain ⟨⟨hright, hrightColumn⟩, hleft, hleftColumn⟩ := by
        simpa only [Sides.mk.injEq, Prod.mk.injEq] using h
      exact .inr ⟨hleft, hright, hleftColumn, hrightColumn⟩
    · obtain ⟨⟨hright, hrightColumn⟩, hleft, hleftColumn⟩ := by
        simpa only [Sides.mk.injEq, Prod.mk.injEq] using h
      exact .inl ⟨hleft, hright, hleftColumn, hrightColumn⟩

/-! ### Reading a signature -/

def endsOf (j : Join) (pair : ColumnPair) : Sides (String × String) :=
  ends (foldName j.entities.left) (foldName j.entities.right) pair

theorem plainEnds_endsOf {j : Join} (h : j.IsPlain) {pair : ColumnPair}
    (hpair : pair ∈ j.condition.pairs) : PlainEnds (j.endsOf pair) := by
  have hleft := (isPlain_foldName _).trans (h.entity .left)
  have hright := (isPlain_foldName _).trans (h.entity .right)
  have hleftColumn := (isPlain_foldName _).trans (h.pair hpair .left)
  have hrightColumn := (isPlain_foldName _).trans (h.pair hpair .right)
  rw [endsOf, ends]
  split
  · exact ⟨hleft, hleftColumn, hright, hrightColumn⟩
  · exact ⟨hright, hrightColumn, hleft, hleftColumn⟩

theorem mem_fragments {j : Join} {text : String} :
    text ∈ j.fragments ↔ ∃ pair ∈ j.condition.pairs, endsText (j.endsOf pair) = text := by
  rw [fragments, mem_sortDistinct, List.mem_map]
  simp only [fragment_eq_endsText, endsOf]

theorem fragments_ne_nil {j : Join} (h : j.condition.pairs ≠ []) : j.fragments ≠ [] := by
  obtain ⟨pair, hpair⟩ := List.exists_mem_of_ne_nil _ h
  exact List.ne_nil_of_mem (mem_fragments.2 ⟨pair, hpair, rfl⟩)

theorem separator_notMem_endsText {e : Sides (String × String)} (h : PlainEnds e) :
    ';' ∉ (endsText e).toList := by
  have hlowTable : ';' ∉ e.left.1.toList := notMem_of_isPlain h.lowTable rfl
  have hlowColumn : ';' ∉ e.left.2.toList := notMem_of_isPlain h.lowColumn rfl
  have hhighTable : ';' ∉ e.right.1.toList := notMem_of_isPlain h.highTable rfl
  have hhighColumn : ';' ∉ e.right.2.toList := notMem_of_isPlain h.highColumn rfl
  simp [toList_endsText, hlowTable, hlowColumn, hhighTable, hhighColumn]

theorem splitOn_signature {j : Join} (h : j.Legible) :
    j.signature.toList.splitOn ';' = j.fragments.map String.toList := by
  refine splitOn_intercalate rfl (fun text htext => ?_) (fragments_ne_nil h.paired)
  obtain ⟨pair, hpair, rfl⟩ := mem_fragments.1 htext
  exact separator_notMem_endsText (plainEnds_endsOf h.plain hpair)

section Equal

variable {j k : Join} (hj : j.Legible) (hk : k.Legible) (h : j.signature = k.signature)

include hj hk h

theorem fragments_eq_of_signature_eq : j.fragments = k.fragments := by
  refine List.map_injective_iff.2 (fun _ _ => String.toList_injective) ?_
  rw [← splitOn_signature hj, ← splitOn_signature hk, h]

theorem exists_ends_of_signature_eq {p : ColumnPair} (hp : p ∈ j.condition.pairs) :
    ∃ q ∈ k.condition.pairs, j.endsOf p = k.endsOf q := by
  have hmem : endsText (j.endsOf p) ∈ k.fragments := by
    rw [← fragments_eq_of_signature_eq hj hk h]
    exact mem_fragments.2 ⟨p, hp, rfl⟩
  obtain ⟨q, hq, hqp⟩ := mem_fragments.1 hmem
  have hplain : PlainEnds (k.endsOf q) := plainEnds_endsOf hk.plain hq
  exact ⟨q, hq, (ends_eq_of_text_eq hplain (plainEnds_endsOf hj.plain hp) hqp).symm⟩

/-- Joins with one signature have the same tables, in the same or in the other order. -/
theorem entities_of_signature_eq :
    (∀ s, foldName (j.entity s) = foldName (k.entity s)) ∨
      (∀ s, foldName (j.entity s) = foldName (k.entity s.opposite)) := by
  obtain ⟨p, hp⟩ := List.exists_mem_of_ne_nil _ hj.paired
  obtain ⟨q, _, hends⟩ := exists_ends_of_signature_eq hj hk h hp
  rcases pair_of_ends_eq hends with ⟨hleft, hright, _⟩ | ⟨hleft, hright, _⟩
  · exact .inl fun s => by cases s <;> assumption
  · exact .inr fun s => by cases s <;> assumption

end Equal

/-! ### Joins that differ in spelling -/

/-- A pair of columns with the keys of their names. -/
def foldPair (pair : ColumnPair) : ColumnPair := ⟨foldName pair.left, foldName pair.right⟩

theorem fragment_congr (left right : String) {p q : ColumnPair} (h : foldPair p = foldPair q) :
    fragment left right p = fragment left right q := by
  obtain ⟨hleft, hright⟩ := by simpa only [foldPair, Sides.mk.injEq] using h
  simp only [fragment, hleft, hright]

/-- Joins that differ at most in the spelling of their tables and columns. -/
structure SpelledAs (j k : Join) : Prop where
  entities : ∀ s, foldName (j.entity s) = foldName (k.entity s)
  pairs : j.condition.pairs.map foldPair = k.condition.pairs.map foldPair

theorem SpelledAs.refl (j : Join) : j.SpelledAs j := ⟨fun _ => rfl, rfl⟩

theorem map_fragment_congr (left right : String) {ps qs : List ColumnPair}
    (h : ps.map foldPair = qs.map foldPair) :
    ps.map (fragment left right) = qs.map (fragment left right) := by
  induction ps generalizing qs with
  | nil => rw [List.map_eq_nil_iff.1 h.symm]
  | cons p ps ih =>
    cases qs with
    | nil => cases h
    | cons q qs =>
      obtain ⟨hhead, htail⟩ := List.cons.inj h
      rw [List.map_cons, List.map_cons, fragment_congr left right hhead, ih htail]

/-- The signature depends on the keys of the names only. -/
theorem SpelledAs.signature_eq {j k : Join} (h : j.SpelledAs k) : j.signature = k.signature := by
  have hleft : foldName j.entities.left = foldName k.entities.left := h.entities .left
  have hright : foldName j.entities.right = foldName k.entities.right := h.entities .right
  rw [signature, signature, fragments, fragments, hleft, hright, map_fragment_congr _ _ h.pairs]

theorem SpelledAs.columns {j k : Join} (h : j.SpelledAs k) (s : Side) :
    (j.columns s).map foldName = (k.columns s).map foldName := by
  have hget : ∀ pairs : List ColumnPair, (pairs.map fun pair => pair.get s).map foldName =
      (pairs.map foldPair).map fun pair => pair.get s := by
    intro pairs
    rw [List.map_map, List.map_map]
    refine List.map_congr_left fun pair _ => ?_
    cases s <;> rfl
  rw [Join.columns, Condition.columns, hget, h.pairs, ← hget]
  rfl

theorem SpelledAs.legible {j k : Join} (h : j.SpelledAs k) (hk : k.Legible) : j.Legible where
  plain := by
    intro name hname
    rcases List.mem_append.1 hname with hentity | hcolumn
    · obtain ⟨s, rfl⟩ := Sides.mem_toList.1 hentity
      exact (isPlain_congr (h.entities s)).trans (hk.plain.entity s)
    · obtain ⟨p, hp, hmem⟩ := List.mem_flatMap.1 hcolumn
      have hfold : foldPair p ∈ k.condition.pairs.map foldPair := by
        rw [← h.pairs]
        exact List.mem_map_of_mem hp
      obtain ⟨q, hq, hqp⟩ := List.mem_map.1 hfold
      obtain ⟨s, rfl⟩ := Sides.mem_toList.1 hmem
      have hside : foldName (q.get s) = foldName (p.get s) := by
        cases s
        · exact congrArg Sides.left hqp
        · exact congrArg Sides.right hqp
      rw [← isPlain_congr hside]
      exact hk.plain.pair hq s
  paired := by
    intro hnone
    have hpairs := h.pairs
    rw [hnone, List.map_nil] at hpairs
    exact hk.paired (List.map_eq_nil_iff.1 hpairs.symm)

end Join

end SchemaDrift
