/-
  SchemaDrift/Proofs/Linkage.lean
  ===============================
  **Which joins share a signature.**

  Apart from names and semantics, a join says which columns of which tables belong
  together.  Without regard to sides, order, repetition and case this is a set of links,
  each an unordered pair of ends, an end being a table with one of its columns
  (`Join.links`).  The fragment of a pair of columns is one way to write its link
  (`endsOf_eq_iff`), so every join has the signature of its links
  (`signature_eq_of_links_eq`), and where a signature can be read, the links can be read
  off it (`links_eq_of_signature_eq`).

  The links are known from the two tables together with the pairs of columns, which have
  to be told apart by their tables where there are two, and have no order where there is
  only one (`links_eq_iff_columns`).  Main statement: `signature_eq_iff_linksAs`.
-/
import Mathlib.Data.Finset.Image
import Mathlib.Data.List.Sort
import Mathlib.Data.String.Basic
import Mathlib.Data.Sym.Sym2.Order
import SchemaDrift.Proofs.Signature

namespace SchemaDrift

namespace Join

/-! ### Links -/

/-- What a pair of columns of a join links: two ends in no order, each a table with a column. -/
def link (j : Join) (pair : ColumnPair) : Sym2 (String × String) :=
  s((foldName j.entities.left, foldName pair.left),
    (foldName j.entities.right, foldName pair.right))

def links (j : Join) : Finset (Sym2 (String × String)) := j.condition.pairs.toFinset.image j.link

theorem mem_links {j : Join} {l : Sym2 (String × String)} :
    l ∈ j.links ↔ ∃ pair ∈ j.condition.pairs, j.link pair = l := by
  simp only [links, Finset.mem_image, List.mem_toFinset]

theorem ends_congr (left right : String) {p q : ColumnPair}
    (hleft : foldName p.left = foldName q.left) (hright : foldName p.right = foldName q.right) :
    ends left right p = ends left right q := by
  rw [ends, ends, hleft, hright]

/-- The ends of a pair are put into order whichever table is written first. -/
theorem ends_swap (left right : String) (p : ColumnPair) :
    ends right left p.swap = ends left right p := by
  rw [ends, ends]
  rcases lt_trichotomy left right with hlt | rfl | hgt
  · rw [if_neg, if_pos (.inl hlt)]
    · rfl
    · rintro (h | ⟨h, -⟩)
      · exact lt_asymm h hlt
      · exact hlt.ne' h
  · -- between the columns of one table the lesser one comes first, unless they are the same
    simp only [lt_irrefl, true_and, false_or, Sides.swap]
    split
    next hle =>
      split
      next hge => rw [le_antisymm hle hge]
      next => rfl
    next hlt => rw [if_pos (le_of_not_ge hlt)]
  · rw [if_pos (.inl hgt), if_neg]
    · rfl
    · rintro (h | ⟨h, -⟩)
      · exact lt_asymm h hgt
      · exact hgt.ne' h

/-- The ends of a pair in their order tell its link, and nothing else. -/
theorem endsOf_eq_iff {j k : Join} {p q : ColumnPair} :
    j.endsOf p = k.endsOf q ↔ j.link p = k.link q := by
  rw [link, link, Sym2.eq_iff, Prod.mk.injEq, Prod.mk.injEq, Prod.mk.injEq, Prod.mk.injEq]
  constructor
  · intro h
    rcases pair_of_ends_eq h with ⟨hleft, hright, hp, hp'⟩ | ⟨hleft, hright, hp, hp'⟩
    · exact .inl ⟨⟨hleft, hp⟩, hright, hp'⟩
    · exact .inr ⟨⟨hleft, hp⟩, hright, hp'⟩
  · rintro (⟨⟨hleft, hp⟩, hright, hp'⟩ | ⟨⟨hleft, hp⟩, hright, hp'⟩)
    · rw [endsOf, endsOf, hleft, hright]
      exact ends_congr _ _ hp hp'
    · rw [endsOf, endsOf, hleft, hright, ← ends_swap]
      exact ends_congr _ _ hp' hp

theorem signature_eq_of_links_eq {j k : Join} (h : j.links = k.links) :
    j.signature = k.signature := by
  have hends : ∀ {j k : Join}, j.links = k.links → ∀ text ∈ j.fragments, text ∈ k.fragments := by
    intro j k h text htext
    obtain ⟨p, hp, rfl⟩ := mem_fragments.1 htext
    obtain ⟨q, hq, hlink⟩ := mem_links.1 (h ▸ mem_links.2 ⟨p, hp, rfl⟩)
    exact mem_fragments.2 ⟨q, hq, congrArg endsText (endsOf_eq_iff.2 hlink)⟩
  have hfragments : j.fragments = k.fragments :=
    (pairwise_sortDistinct _).eq_of_mem_iff (pairwise_sortDistinct _) fun text =>
      ⟨hends h text, hends h.symm text⟩
  rw [signature, signature, hfragments]

theorem links_eq_of_signature_eq {j k : Join} (hj : j.Legible) (hk : k.Legible)
    (h : j.signature = k.signature) : j.links = k.links := by
  have hlinks : ∀ {j k : Join}, j.Legible → k.Legible → j.signature = k.signature →
      j.links ⊆ k.links := by
    intro j k hj hk h l hl
    obtain ⟨p, hp, rfl⟩ := mem_links.1 hl
    obtain ⟨q, hq, hends⟩ := exists_ends_of_signature_eq hj hk h hp
    exact mem_links.2 ⟨q, hq, (endsOf_eq_iff.1 hends).symm⟩
  exact (hlinks hj hk h).antisymm (hlinks hk hj h.symm)

/-! ### Tables and columns apart -/

/-- The two tables of a join, in no order. -/
def tablePair (j : Join) : Sym2 String := s(foldName j.entities.left, foldName j.entities.right)

/-- Whether a join is of a table with itself. -/
def IsSelfJoin (j : Join) : Prop := foldName j.entities.left = foldName j.entities.right

instance (j : Join) : Decidable j.IsSelfJoin := inferInstanceAs (Decidable (_ = _))

/-- The pairs of columns, each in no order. -/
def columnPairs (j : Join) : Finset (Sym2 String) :=
  j.condition.pairs.toFinset.image fun pair => s(foldName pair.left, foldName pair.right)

/-- The pairs of columns, the column of the lesser table first. -/
def columnsByTable (j : Join) : Finset (String × String) :=
  j.condition.pairs.toFinset.image fun pair =>
    if foldName j.entities.left < foldName j.entities.right then
      (foldName pair.left, foldName pair.right)
    else (foldName pair.right, foldName pair.left)

/-- Joins that link the same columns of the same two tables: where the tables differ, a column of
    one with a column of the other, and in a single table just two columns. -/
structure LinksAs (j k : Join) : Prop where
  tables : j.tablePair = k.tablePair
  columns : if j.IsSelfJoin then j.columnPairs = k.columnPairs
    else j.columnsByTable = k.columnsByTable

theorem isSelfJoin_iff {j : Join} : j.IsSelfJoin ↔ j.tablePair.IsDiag := Sym2.mk_isDiag_iff.symm

theorem map_fst_link (j : Join) (pair : ColumnPair) :
    (j.link pair).map Prod.fst = j.tablePair := rfl

theorem tablePair_eq_of_links_eq {j k : Join} (hj : j.condition.pairs ≠ [])
    (h : j.links = k.links) : j.tablePair = k.tablePair := by
  obtain ⟨p, hp⟩ := List.exists_mem_of_ne_nil _ hj
  obtain ⟨q, -, hlink⟩ := mem_links.1 (h ▸ mem_links.2 ⟨p, hp, rfl⟩)
  rw [← map_fst_link j p, ← hlink, map_fst_link]

/-- In a join of a table with itself the link of two columns is known from the columns. -/
theorem links_of_isSelfJoin {j : Join} (h : j.IsSelfJoin) :
    j.links = j.columnPairs.image (Sym2.map (j.tablePair.inf, ·)) := by
  have htable : foldName j.entities.right = foldName j.entities.left := h.symm
  rw [links, columnPairs, Finset.image_image]
  refine Finset.image_congr fun pair _ => ?_
  simp only [link, tablePair, htable, Function.comp_apply, Sym2.map_mk, Sym2.inf_mk, inf_idem]

/-- Between two tables the link of two columns is known once it is known whose column is which. -/
theorem links_of_not_isSelfJoin {j : Join} (h : ¬ j.IsSelfJoin) :
    j.links = j.columnsByTable.image fun columns =>
      s((j.tablePair.inf, columns.1), (j.tablePair.sup, columns.2)) := by
  rw [links, columnsByTable, Finset.image_image]
  refine Finset.image_congr fun pair _ => ?_
  rcases lt_or_gt_of_ne h with hlt | hgt
  · simp only [link, tablePair, Function.comp_apply, if_pos hlt, Sym2.inf_mk, Sym2.sup_mk]
    rw [inf_of_le_left hlt.le, sup_of_le_right hlt.le]
  · simp only [link, tablePair, Function.comp_apply, if_neg hgt.not_gt, Sym2.inf_mk, Sym2.sup_mk]
    rw [inf_of_le_right hgt.le, sup_of_le_left hgt.le, Sym2.eq_swap]

theorem inf_ne_sup {j : Join} (h : ¬ j.IsSelfJoin) : j.tablePair.inf ≠ j.tablePair.sup := by
  intro heq
  exact h (inf_eq_sup.1 heq)

/-- Joins of the same two tables have the same links exactly when they have the same pairs of
    columns. -/
theorem links_eq_iff_columns {j k : Join} (h : j.tablePair = k.tablePair) :
    j.links = k.links ↔
      if j.IsSelfJoin then j.columnPairs = k.columnPairs
      else j.columnsByTable = k.columnsByTable := by
  have hself : k.IsSelfJoin ↔ j.IsSelfJoin := by rw [isSelfJoin_iff, isSelfJoin_iff, h]
  split
  next hj =>
    rw [links_of_isSelfJoin hj, links_of_isSelfJoin (hself.2 hj), h]
    refine (Finset.image_injective (Sym2.map.injective ?_)).eq_iff
    intro column column' hcolumn
    exact congrArg Prod.snd hcolumn
  next hj =>
    have hne := inf_ne_sup hj
    rw [links_of_not_isSelfJoin hj, links_of_not_isSelfJoin (mt hself.1 hj), ← h]
    refine (Finset.image_injective ?_).eq_iff
    intro columns columns' hcolumns
    rcases Sym2.eq_iff.1 hcolumns with ⟨hlow, hhigh⟩ | ⟨hcrossed, -⟩
    · exact Prod.ext (Prod.mk.inj hlow).2 (Prod.mk.inj hhigh).2
    · exact absurd (Prod.mk.inj hcrossed).1 hne

theorem links_eq_iff_linksAs {j k : Join} (hj : j.condition.pairs ≠ []) :
    j.links = k.links ↔ j.LinksAs k := by
  constructor
  · intro h
    have htables := tablePair_eq_of_links_eq hj h
    exact ⟨htables, (links_eq_iff_columns htables).1 h⟩
  · intro h
    exact (links_eq_iff_columns h.tables).2 h.columns

instance (j k : Join) : Decidable (j.LinksAs k) :=
  decidable_of_iff (j.tablePair = k.tablePair ∧ if j.IsSelfJoin then j.columnPairs = k.columnPairs
    else j.columnsByTable = k.columnsByTable) ⟨fun h => ⟨h.1, h.2⟩, fun h => ⟨h.1, h.2⟩⟩

/-! ### Signatures -/

theorem links_reversed (j : Join) : j.reversed.links = j.links := by
  ext l
  have hswap : ∀ pair, j.reversed.link pair.swap = j.link pair := fun pair => Sym2.eq_swap
  rw [mem_links, mem_links, reversed, Condition.pairs_swap]
  constructor
  · rintro ⟨turned, hturned, rfl⟩
    obtain ⟨pair, hpair, rfl⟩ := List.mem_map.1 hturned
    exact ⟨pair, hpair, (hswap pair).symm⟩
  · rintro ⟨pair, hpair, rfl⟩
    exact ⟨pair.swap, List.mem_map_of_mem hpair, hswap pair⟩

/-- **Joins have one signature exactly when they link the same columns of the same tables.**  So a
    join keeps its signature when it is turned round, when its pairs of columns are put in another
    order, repeated or written another way, and when its names are spelled in another case. -/
theorem signature_eq_iff_linksAs {j k : Join} (hj : j.Legible) (hk : k.Legible) :
    (j.signature = k.signature ↔ j.LinksAs k) ∧
      j.reversed.signature = j.signature ∧
      (∀ c : Condition, (∀ pair, pair ∈ c.pairs ↔ pair ∈ j.condition.pairs) →
        { j with condition := c }.signature = j.signature) ∧
      ∀ j' : Join, j'.SpelledAs j → j'.signature = j.signature := by
  refine ⟨?_, signature_eq_of_links_eq (links_reversed j), fun c hc => ?_,
    fun j' hspelled => hspelled.signature_eq⟩
  · rw [← links_eq_iff_linksAs hj.paired]
    exact ⟨links_eq_of_signature_eq hj hk, signature_eq_of_links_eq⟩
  · apply signature_eq_of_links_eq
    have hpairs : c.pairs.toFinset = j.condition.pairs.toFinset := List.toFinset.ext hc
    exact congrArg (Finset.image j.link) hpairs

/-- A join of the people of a company with themselves. -/
def staffJoin (left right : String) (condition : Condition) : Join where
  entities := ⟨left, right⟩
  names := ⟨none, none⟩
  cardinality := .oneToMany
  dependentKey := .none
  condition

theorem signature_eq_iff_linksAs_staff :
    let j := staffJoin "STAFF" "Staff" (.composite [⟨"ID", "BOSS"⟩, ⟨"SITE", "AREA"⟩])
    let k := staffJoin "staff" "STAFF" (.composite
      [⟨"Area", "Site"⟩, ⟨"id", "Boss"⟩, ⟨"BOSS", "ID"⟩])
    let l := staffJoin "STAFF" "STAFF_2" (.composite [⟨"ID", "BOSS"⟩, ⟨"SITE", "AREA"⟩])
    let m := staffJoin "STAFF_2" "STAFF" (.composite [⟨"ID", "BOSS"⟩, ⟨"SITE", "AREA"⟩])
    (j.Legible ∧ k.Legible ∧ l.Legible ∧ m.Legible) ∧
      j.signature = k.signature ∧ j.signature ≠ l.signature ∧ l.signature ≠ m.signature ∧
        l.reversed.signature = l.signature := by
  intro j k l m
  have hj : j.Legible := ⟨by decide, by decide⟩
  have hk : k.Legible := ⟨by decide, by decide⟩
  have hl : l.Legible := ⟨by decide, by decide⟩
  have hm : m.Legible := ⟨by decide, by decide⟩
  refine ⟨⟨hj, hk, hl, hm⟩, ?_, ?_, ?_, (signature_eq_iff_linksAs hl hm).2.1⟩
  · exact (signature_eq_iff_linksAs hj hk).1.2 (by decide +kernel)
  · exact mt (signature_eq_iff_linksAs hj hl).1.1 (by decide +kernel)
  · exact mt (signature_eq_iff_linksAs hl hm).1.1 (by decide +kernel)

end Join

end SchemaDrift
