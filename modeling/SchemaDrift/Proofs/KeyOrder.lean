/-
  SchemaDrift/Proofs/KeyOrder.lean
  ================================
  **The order in which a difference lists its entries.**

  A difference is made of blocks, one for each key.  The keys of the originals are gone
  through first, in increasing order, and the keys that only imported entries have after
  them, in increasing order again (`pairwise_matchKeys`).  Every original entry, and so
  every pair, has its key in the first run, and these two lists are in the order of their
  keys.

  The imported entries that are left over come from both runs.  A key of the originals
  that more imported entries have leaves its surplus in the first run, and a key of the
  second run may come before it.  So this list is two ordered ones, one behind the other,
  and it is in order exactly if every surplus key comes before every new one.  Main
  statement: `difference_ordered`.
-/
import SchemaDrift.Proofs.Pairing

namespace SchemaDrift

variable {α β : Type}

/-- Entries in the order of their keys.  Those of one key may stand in any order. -/
def InKeyOrder (keyOf : α → String) (entries : List α) : Prop :=
  entries.Pairwise fun x y => keyOf x ≤ keyOf y

instance (keyOf : α → String) (entries : List α) : Decidable (InKeyOrder keyOf entries) :=
  inferInstanceAs (Decidable (entries.Pairwise fun x y => keyOf x ≤ keyOf y))

/-! ### Blocks -/

/-- Blocks that hold the entries of their own key only are in order exactly if the keys of those
    that hold any are. -/
theorem inKeyOrder_flatMap {tagOf : β → String} {block : String → List β}
    (htag : ∀ key, ∀ x ∈ block key, tagOf x = key) (keys : List String) :
    InKeyOrder tagOf (keys.flatMap block) ↔
      keys.Pairwise fun k l => block k ≠ [] → block l ≠ [] → k ≤ l := by
  have hwithin : ∀ key ∈ keys, (block key).Pairwise fun x y => tagOf x ≤ tagOf y := by
    intro key _
    refine List.pairwise_of_forall_mem_list fun x hx y hy => ?_
    have hsame : tagOf x = tagOf y := (htag key x hx).trans (htag key y hy).symm
    exact hsame ▸ String.le_refl (tagOf x)
  rw [InKeyOrder, List.pairwise_flatMap, and_iff_right hwithin]
  refine List.Pairwise.iff fun k l => ?_
  constructor
  · intro hall hk hl
    obtain ⟨x, hx⟩ := List.exists_mem_of_ne_nil _ hk
    obtain ⟨y, hy⟩ := List.exists_mem_of_ne_nil _ hl
    have hle := hall x hx y hy
    rwa [htag k x hx, htag l y hy] at hle
  · intro hle x hx y hy
    rw [htag k x hx, htag l y hy]
    exact hle (List.ne_nil_of_mem hx) (List.ne_nil_of_mem hy)

section Difference

variable (keyOf : α → String) (original imported : List α)

/-- Each of the two runs of keys is in order, so that only keys of different runs can be out of
    it. -/
theorem pairwise_matchKeys (holds : String → Prop) :
    ((matchKeys keyOf original imported).Pairwise fun k l => holds k → holds l → k ≤ l) ↔
      ∀ k ∈ original.map keyOf, ∀ l ∈ imported.map keyOf, l ∉ original.map keyOf →
        holds k → holds l → k ≤ l := by
  have hrun : ∀ entries : List α,
      (keysOf keyOf entries).Pairwise fun k l => holds k → holds l → k ≤ l := by
    intro entries
    exact (pairwise_sortDistinct _).imp fun hlt _ _ => Std.le_of_lt hlt
  have hmem : ∀ (entries : List α) key, key ∈ keysOf keyOf entries ↔ key ∈ entries.map keyOf :=
    fun _ _ => mem_sortDistinct
  rw [matchKeys, List.pairwise_append, and_iff_right (hrun original),
    and_iff_right ((hrun imported).filter _)]
  simp only [List.mem_filter, Bool.not_eq_true', List.contains_eq_mem, decide_eq_false_iff_not,
    hmem, and_imp]

/-- Blocks that are empty without originals are in order. -/
theorem inKeyOrder_of_originals {tagOf : β → String} {block : String → List β}
    (htag : ∀ key, ∀ x ∈ block key, tagOf x = key)
    (hnone : ∀ key, entriesOf keyOf key original = [] → block key = []) :
    InKeyOrder tagOf ((matchKeys keyOf original imported).flatMap block) := by
  rw [inKeyOrder_flatMap htag, pairwise_matchKeys]
  intro k _ l _ hnew _ hblock
  have hempty : entriesOf keyOf l original = [] :=
    entriesOf_eq_nil fun hmem => hnew (mem_sortDistinct.1 hmem)
  exact absurd (hnone l hempty) hblock

theorem inKeyOrder_onlyOriginal :
    InKeyOrder keyOf (difference keyOf original imported).onlyOriginal := by
  rw [onlyOriginal_difference]
  refine inKeyOrder_of_originals keyOf original imported (fun key x hx => ?_) fun key hkey => ?_
  · exact (mem_entriesOf.1 (List.mem_of_mem_drop hx)).2
  · rw [hkey, List.drop_nil]

theorem inKeyOrder_both : InKeyOrder (keyOf ·.1) (difference keyOf original imported).both := by
  rw [both_difference]
  refine inKeyOrder_of_originals keyOf original imported (fun key pair hpair => ?_)
    fun key hkey => ?_
  · exact (mem_entriesOf.1 (List.of_mem_zip hpair).1).2
  · rw [hkey, List.zip_nil_left]

/-! ### Keys that are left over -/

/-- A key of the originals that more imported entries have. -/
def IsSurplusKey (key : String) : Prop :=
  key ∈ original.map keyOf ∧ (original.map keyOf).count key < (imported.map keyOf).count key

/-- A key that imported entries have and originals do not. -/
def IsNewKey (key : String) : Prop := key ∈ imported.map keyOf ∧ key ∉ original.map keyOf

theorem inKeyOrder_onlyImported :
    InKeyOrder keyOf (difference keyOf original imported).onlyImported ↔
      ∀ surplus new, IsSurplusKey keyOf original imported surplus →
        IsNewKey keyOf original imported new → surplus < new := by
  have hblock : ∀ key,
      (entriesOf keyOf key imported).drop (entriesOf keyOf key original).length ≠ [] ↔
        (original.map keyOf).count key < (imported.map keyOf).count key := by
    intro key
    rw [ne_eq, List.drop_eq_nil_iff, Nat.not_le, length_entriesOf, length_entriesOf]
  have htag : ∀ key,
      ∀ x ∈ (entriesOf keyOf key imported).drop (entriesOf keyOf key original).length,
        keyOf x = key :=
    fun key x hx => (mem_entriesOf.1 (List.mem_of_mem_drop hx)).2
  rw [onlyImported_difference, inKeyOrder_flatMap htag, pairwise_matchKeys]
  simp only [hblock]
  constructor
  · rintro hall k l ⟨hk, hsurplus⟩ ⟨hl, hnew⟩
    -- all entries of a new key are left over
    have hcount : (original.map keyOf).count l < (imported.map keyOf).count l := by
      rw [List.count_eq_zero_of_not_mem hnew]
      exact List.count_pos_iff.2 hl
    have hne : k ≠ l := by
      rintro rfl
      exact hnew hk
    exact Std.lt_of_le_of_ne (hall k hk l hl hnew hsurplus hcount) hne
  · intro hall k hk l hl hnew hsurplus _
    exact Std.le_of_lt (hall k l ⟨hk, hsurplus⟩ ⟨hl, hnew⟩)

end Difference

/-- **A difference lists the originals that are left over, and the pairs, in the order of their
    keys**, and the imported entries that are left over exactly if every key of which there is a
    surplus comes before every new one. -/
theorem difference_ordered (keyOf : α → String) (original imported : List α) :
    InKeyOrder keyOf (difference keyOf original imported).onlyOriginal ∧
      InKeyOrder (keyOf ·.1) (difference keyOf original imported).both ∧
      InKeyOrder (keyOf ·.2) (difference keyOf original imported).both ∧
      (InKeyOrder keyOf (difference keyOf original imported).onlyImported ↔
        ∀ surplus new, IsSurplusKey keyOf original imported surplus →
          IsNewKey keyOf original imported new → surplus < new) := by
  have hboth := inKeyOrder_both keyOf original imported
  have hsame : InKeyOrder (keyOf ·.2) (difference keyOf original imported).both := by
    refine hboth.imp_of_mem fun {pair pair'} hpair hpair' hle => ?_
    change keyOf pair.1 ≤ keyOf pair'.1 at hle
    rwa [(mem_both hpair).2.2, (mem_both hpair').2.2] at hle
  exact ⟨inKeyOrder_onlyOriginal keyOf original imported, hboth, hsame,
    inKeyOrder_onlyImported keyOf original imported⟩

/-- A table that was imported twice is left over before one that is new and comes first. -/
theorem onlyImported_notInKeyOrder :
    ¬ InKeyOrder foldName
      (difference foldName ["PAINTING"] ["PAINTING", "Painting", "ARTIST"]).onlyImported := by
  decide +kernel

end SchemaDrift
