/-
  SchemaDrift/Proofs/Matching.lean
  ================================
  **What a difference says about one key, and about all entries together.**

  A difference is made key by key, and no key looks at the entries of another.  So the
  entries of one key can be read off without the rest: `entriesOf_onlyOriginal`,
  `entriesOf_onlyImported` and `pairsOf_both` give them in the terms of
  `Difference.ofKey`.  Over all keys nothing is lost: `perm_originals` and
  `perm_imports`.  A difference without ambiguous keys is one of two lists that have
  each key at most once (`nodup_keys_of_unambiguous`), and exchanging the two lists
  exchanges what the difference says of them (`onlyOriginal_exchanged`, `both_exchanged`).
  Rewriting the entries under their keys rewrites the difference (`difference_map`).
-/
import Mathlib.Data.List.Nodup
import Mathlib.Data.List.Perm.Basic
import Mathlib.Data.List.Zip
import SchemaDrift.Difference
import SchemaDrift.Proofs.Keyed

namespace SchemaDrift

variable {α : Type} {keyOf : α → String} {key : String} {entries original imported : List α}

/-! ### The entries of a key -/

theorem mem_entriesOf {x : α} : x ∈ entriesOf keyOf key entries ↔ x ∈ entries ∧ keyOf x = key := by
  simp [entriesOf]

theorem length_entriesOf :
    (entriesOf keyOf key entries).length = (entries.map keyOf).count key := by
  induction entries with
  | nil => rfl
  | cons x xs ih =>
    rw [entriesOf, List.filter_cons, List.map_cons, List.count_cons]
    split <;> simp_all [entriesOf]

theorem nodup_keys_iff :
    (entries.map keyOf).Nodup ↔ ∀ key, (entriesOf keyOf key entries).length ≤ 1 := by
  simp only [length_entriesOf]
  exact List.nodup_iff_count_le_one

/-- Where no key has two entries, the first entry of a key is its only one. -/
theorem entriesOf_eq_toList (h : (entries.map keyOf).Nodup) (key : String) :
    entriesOf keyOf key entries = (entryAt keyOf entries key).toList := by
  have hhead : (entriesOf keyOf key entries).head? = entryAt keyOf entries key :=
    List.head?_filter
  have hlength := nodup_keys_iff.1 h key
  rw [← hhead]
  match hentries : entriesOf keyOf key entries with
  | [] => rfl
  | [x] => rfl
  | x :: y :: rest => simp [hentries] at hlength

/-! ### Blocks of entries, one for each key -/

/-- Of blocks that hold the entries of their own key only, a key picks out its block. -/
theorem filter_blocks {β : Type} {tagOf : β → String} {f : String → List β} {keys : List String}
    (hkeys : keys.Nodup) (htag : ∀ key, ∀ x ∈ f key, tagOf x = key)
    (houtside : key ∉ keys → f key = []) :
    (keys.flatMap f).filter (tagOf · == key) = f key := by
  have hown : (f key).filter (tagOf · == key) = f key :=
    List.filter_eq_self.2 fun x hx => beq_iff_eq.2 (htag key x hx)
  have hother : ∀ other, other ≠ key → (f other).filter (tagOf · == key) = [] := by
    intro other hne
    refine List.filter_eq_nil_iff.2 fun x hx hk => hne ?_
    exact (htag other x hx).symm.trans (beq_iff_eq.1 hk)
  rw [List.filter_flatMap]
  induction keys with
  | nil => exact (houtside List.not_mem_nil).symm
  | cons first keys ih =>
    obtain ⟨hfirst, hrest⟩ := List.nodup_cons.1 hkeys
    rw [List.flatMap_cons]
    by_cases heq : first = key
    · subst heq
      have hnone : keys.flatMap (fun other => (f other).filter (tagOf · == first)) = [] := by
        refine List.flatMap_eq_nil_iff.2 fun other hmem => hother other ?_
        rintro rfl
        exact hfirst hmem
      rw [hnone, hown, List.append_nil]
    · rw [hother first heq, List.nil_append]
      refine ih hrest fun hmem => houtside ?_
      rintro (_ | ⟨_, hmem'⟩)
      · exact heq rfl
      · exact hmem hmem'

/-- The blocks of all keys together are the entries. -/
theorem perm_blocks {keys : List String} (hkeys : keys.Nodup)
    (hcover : ∀ x ∈ entries, keyOf x ∈ keys) :
    (keys.flatMap fun key => entriesOf keyOf key entries).Perm entries := by
  induction keys generalizing entries with
  | nil =>
    have hnone : entries = [] :=
      List.eq_nil_iff_forall_not_mem.2 fun x hx => List.not_mem_nil (hcover x hx)
    rw [hnone]
    exact List.Perm.nil
  | cons first keys ih =>
    obtain ⟨hfirst, hrest⟩ := List.nodup_cons.1 hkeys
    have hothers : (keys.flatMap fun key => entriesOf keyOf key entries) =
        keys.flatMap fun key =>
          entriesOf keyOf key (entries.filter fun x => !(keyOf x == first)) := by
      refine List.flatMap_congr fun key hkey => ?_
      rw [entriesOf, entriesOf, List.filter_filter]
      refine List.filter_congr fun x _ => ?_
      by_cases hx : keyOf x = key
      · have hne : keyOf x ≠ first := fun h => hfirst (h ▸ hx ▸ hkey)
        simp [hx, hx ▸ hne]
      · simp [hx]
    rw [List.flatMap_cons, hothers]
    refine ((ih hrest fun x hx => ?_).append_left _).trans (List.filter_append_perm _ _)
    obtain ⟨hmem, hne⟩ := List.mem_filter.1 hx
    rcases List.mem_cons.1 (hcover x hmem) with heq | hin
    · simp [heq] at hne
    · exact hin

/-! ### The fields of a difference, key by key -/

theorem mem_keysOf : key ∈ keysOf keyOf entries ↔ ∃ x ∈ entries, keyOf x = key := by
  rw [keysOf, mem_sortDistinct, List.mem_map]

theorem entriesOf_eq_nil (h : key ∉ keysOf keyOf entries) : entriesOf keyOf key entries = [] := by
  apply List.eq_nil_iff_forall_not_mem.2
  intro x hx
  exact h (mem_keysOf.2 ⟨x, mem_entriesOf.1 hx⟩)

theorem nodup_keysOf : (keysOf keyOf entries).Nodup :=
  (pairwise_sortDistinct _).imp fun h => String.ne_of_lt h

/-- The keys of two lists of entries, in the order in which a difference goes through them. -/
def matchKeys (keyOf : α → String) (original imported : List α) : List String :=
  keysOf keyOf original ++
    (keysOf keyOf imported).filter fun key => !(keysOf keyOf original).contains key

theorem mem_matchKeys :
    key ∈ matchKeys keyOf original imported ↔
      key ∈ keysOf keyOf original ∨ key ∈ keysOf keyOf imported := by
  simp only [matchKeys, List.mem_append, List.mem_filter, Bool.not_eq_true', List.contains_eq_mem,
    decide_eq_false_iff_not]
  tauto

theorem nodup_matchKeys : (matchKeys keyOf original imported).Nodup := by
  refine List.Nodup.append nodup_keysOf (nodup_keysOf.filter _) fun key horiginal himported => ?_
  simp [horiginal] at himported

theorem onlyOriginal_difference :
    (difference keyOf original imported).onlyOriginal =
      (matchKeys keyOf original imported).flatMap fun key =>
        (entriesOf keyOf key original).drop (entriesOf keyOf key imported).length := by
  change (differenceAt keyOf original imported (matchKeys keyOf original imported)).onlyOriginal = _
  induction matchKeys keyOf original imported with
  | nil => rfl
  | cons key keys ih => rw [List.flatMap_cons, ← ih]; rfl

theorem onlyImported_difference :
    (difference keyOf original imported).onlyImported =
      (matchKeys keyOf original imported).flatMap fun key =>
        (entriesOf keyOf key imported).drop (entriesOf keyOf key original).length := by
  change (differenceAt keyOf original imported (matchKeys keyOf original imported)).onlyImported = _
  induction matchKeys keyOf original imported with
  | nil => rfl
  | cons key keys ih => rw [List.flatMap_cons, ← ih]; rfl

theorem both_difference :
    (difference keyOf original imported).both =
      (matchKeys keyOf original imported).flatMap fun key =>
        (entriesOf keyOf key original).zip (entriesOf keyOf key imported) := by
  change (differenceAt keyOf original imported (matchKeys keyOf original imported)).both = _
  induction matchKeys keyOf original imported with
  | nil => rfl
  | cons key keys ih => rw [List.flatMap_cons, ← ih]; rfl

theorem mem_ambiguous_difference :
    key ∈ (difference keyOf original imported).ambiguous ↔
      1 < (entriesOf keyOf key original).length ∨ 1 < (entriesOf keyOf key imported).length := by
  have hfound : ∀ keys : List String,
      key ∈ (differenceAt keyOf original imported keys).ambiguous ↔ key ∈ keys ∧
        (1 < (entriesOf keyOf key original).length ∨
          1 < (entriesOf keyOf key imported).length) := by
    intro keys
    induction keys with
    | nil => simp [differenceAt]
    | cons first keys ih =>
      have hcons : (differenceAt keyOf original imported (first :: keys)).ambiguous =
          (Difference.ofKey first (entriesOf keyOf first original)
            (entriesOf keyOf first imported)).ambiguous ++
          (differenceAt keyOf original imported keys).ambiguous := rfl
      rw [hcons, List.mem_append, ih, List.mem_cons, Difference.ofKey]
      split <;> simp_all <;> grind
  change key ∈ sortDistinct (differenceAt keyOf original imported
    (matchKeys keyOf original imported)).ambiguous ↔ _
  rw [mem_sortDistinct, hfound, and_iff_right_of_imp]
  rintro (h | h)
  · obtain ⟨x, hx⟩ := List.exists_mem_of_length_pos (Nat.lt_of_succ_lt h)
    exact mem_matchKeys.2 (.inl (mem_keysOf.2 ⟨x, mem_entriesOf.1 hx⟩))
  · obtain ⟨x, hx⟩ := List.exists_mem_of_length_pos (Nat.lt_of_succ_lt h)
    exact mem_matchKeys.2 (.inr (mem_keysOf.2 ⟨x, mem_entriesOf.1 hx⟩))

/-! ### One key of a difference -/

theorem entriesOf_eq_nil_of_notMem (h : key ∉ matchKeys keyOf original imported) :
    entriesOf keyOf key original = [] ∧ entriesOf keyOf key imported = [] := by
  rw [mem_matchKeys, not_or] at h
  exact ⟨entriesOf_eq_nil h.1, entriesOf_eq_nil h.2⟩

theorem entriesOf_onlyOriginal (key : String) :
    entriesOf keyOf key (difference keyOf original imported).onlyOriginal =
      (entriesOf keyOf key original).drop (entriesOf keyOf key imported).length := by
  rw [onlyOriginal_difference]
  refine filter_blocks nodup_matchKeys (fun k x hx => ?_) (fun houtside => ?_)
  · exact (mem_entriesOf.1 (List.mem_of_mem_drop hx)).2
  · rw [(entriesOf_eq_nil_of_notMem houtside).1, List.drop_nil]

theorem entriesOf_onlyImported (key : String) :
    entriesOf keyOf key (difference keyOf original imported).onlyImported =
      (entriesOf keyOf key imported).drop (entriesOf keyOf key original).length := by
  rw [onlyImported_difference]
  refine filter_blocks nodup_matchKeys (fun k x hx => ?_) (fun houtside => ?_)
  · exact (mem_entriesOf.1 (List.mem_of_mem_drop hx)).2
  · rw [(entriesOf_eq_nil_of_notMem houtside).2, List.drop_nil]

theorem pairsOf_both (key : String) :
    (difference keyOf original imported).both.filter (fun pair => keyOf pair.1 == key) =
      (entriesOf keyOf key original).zip (entriesOf keyOf key imported) := by
  rw [both_difference]
  refine filter_blocks nodup_matchKeys (fun k x hx => ?_) (fun houtside => ?_)
  · exact (mem_entriesOf.1 (List.of_mem_zip hx).1).2
  · rw [(entriesOf_eq_nil_of_notMem houtside).1, List.zip_nil_left]

theorem mem_both {x y : α} (h : (x, y) ∈ (difference keyOf original imported).both) :
    x ∈ original ∧ y ∈ imported ∧ keyOf x = keyOf y := by
  rw [both_difference] at h
  obtain ⟨k, _, hk⟩ := List.mem_flatMap.1 h
  obtain ⟨hx, hy⟩ := List.of_mem_zip hk
  rw [mem_entriesOf] at hx hy
  exact ⟨hx.1, hy.1, hx.2.trans hy.2.symm⟩

theorem nodup_keys_of_unambiguous (h : (difference keyOf original imported).ambiguous = []) :
    (original.map keyOf).Nodup ∧ (imported.map keyOf).Nodup := by
  have hnot : ∀ key, ¬ (1 < (entriesOf keyOf key original).length ∨
      1 < (entriesOf keyOf key imported).length) := by
    intro key hlong
    have := mem_ambiguous_difference.2 hlong
    simp [h] at this
  simp only [nodup_keys_iff]
  constructor
  · intro key
    exact Nat.not_lt.1 fun hlong => hnot key (.inl hlong)
  · intro key
    exact Nat.not_lt.1 fun hlong => hnot key (.inr hlong)

/-! ### All entries of a difference -/

theorem map_fst_zip_append_drop (xs ys : List α) :
    (xs.zip ys).map Prod.fst ++ xs.drop ys.length = xs := by
  induction xs generalizing ys with
  | nil => simp
  | cons x xs ih =>
    cases ys with
    | nil => simp
    | cons y ys => simpa using ih ys

theorem map_snd_zip_append_drop (xs ys : List α) :
    (xs.zip ys).map Prod.snd ++ ys.drop xs.length = ys := by
  induction xs generalizing ys with
  | nil => simp
  | cons x xs ih =>
    cases ys with
    | nil => simp
    | cons y ys => simpa using ih ys

/-- Every original entry is in a pair or left over. -/
theorem perm_originals (keyOf : α → String) (original imported : List α) :
    ((difference keyOf original imported).both.map Prod.fst ++
      (difference keyOf original imported).onlyOriginal).Perm original := by
  rw [both_difference, onlyOriginal_difference, List.map_flatMap]
  refine (List.flatMap_append_perm _ _ _).trans ?_
  rw [List.flatMap_congr fun key _ => map_fst_zip_append_drop _ _]
  exact perm_blocks nodup_matchKeys fun x hx => mem_matchKeys.2 (.inl (mem_keysOf.2 ⟨x, hx, rfl⟩))

theorem perm_imports (keyOf : α → String) (original imported : List α) :
    ((difference keyOf original imported).both.map Prod.snd ++
      (difference keyOf original imported).onlyImported).Perm imported := by
  rw [both_difference, onlyImported_difference, List.map_flatMap]
  refine (List.flatMap_append_perm _ _ _).trans ?_
  rw [List.flatMap_congr fun key _ => map_snd_zip_append_drop _ _]
  exact perm_blocks nodup_matchKeys fun x hx => mem_matchKeys.2 (.inr (mem_keysOf.2 ⟨x, hx, rfl⟩))

theorem keys_both (keyOf : α → String) (original imported : List α) :
    (difference keyOf original imported).both.map (keyOf ·.1) =
      (difference keyOf original imported).both.map (keyOf ·.2) :=
  List.map_congr_left fun _ hpair => (mem_both hpair).2.2

theorem onlyOriginal_eq_nil_of_perm (h : (original.map keyOf).Perm (imported.map keyOf)) :
    (difference keyOf original imported).onlyOriginal = [] := by
  rw [onlyOriginal_difference, List.flatMap_eq_nil_iff]
  intro key _
  rw [length_entriesOf, ← h.count_eq, ← length_entriesOf, List.drop_length]

theorem onlyImported_eq_nil_of_perm (h : (original.map keyOf).Perm (imported.map keyOf)) :
    (difference keyOf original imported).onlyImported = [] := by
  rw [onlyImported_difference, List.flatMap_eq_nil_iff]
  intro key _
  rw [length_entriesOf, h.count_eq, ← length_entriesOf, List.drop_length]

/-! ### Lists that have each key at most once -/

section Distinct

/-- Of distinct entries those are left over whose key the other list does not have. -/
theorem mem_drop_entriesOf {xs ys : List α} (h : (xs.map keyOf).Nodup) {x : α} :
    x ∈ (entriesOf keyOf (keyOf x) xs).drop (entriesOf keyOf (keyOf x) ys).length ↔
      x ∈ xs ∧ keyOf x ∉ ys.map keyOf := by
  have hlength := nodup_keys_iff.1 h (keyOf x)
  by_cases hkey : keyOf x ∈ ys.map keyOf
  · have hpos : 0 < (entriesOf keyOf (keyOf x) ys).length := by
      rw [length_entriesOf]
      exact List.count_pos_iff.2 hkey
    rw [List.drop_eq_nil_of_le (Nat.le_trans hlength hpos)]
    simp [hkey]
  · have hzero : (entriesOf keyOf (keyOf x) ys).length = 0 := by
      rw [length_entriesOf]
      exact List.count_eq_zero.2 hkey
    rw [hzero, List.drop_zero, mem_entriesOf]
    simp [hkey]

variable (horiginal : (original.map keyOf).Nodup) (himported : (imported.map keyOf).Nodup)

include horiginal in
theorem mem_onlyOriginal_iff {x : α} :
    x ∈ (difference keyOf original imported).onlyOriginal ↔
      x ∈ original ∧ keyOf x ∉ imported.map keyOf := by
  rw [← mem_drop_entriesOf horiginal, ← entriesOf_onlyOriginal, mem_entriesOf, and_iff_left rfl]

include himported in
theorem mem_onlyImported_iff {y : α} :
    y ∈ (difference keyOf original imported).onlyImported ↔
      y ∈ imported ∧ keyOf y ∉ original.map keyOf := by
  rw [← mem_drop_entriesOf himported, ← entriesOf_onlyImported, mem_entriesOf, and_iff_left rfl]

include horiginal himported in
theorem mem_both_iff {x y : α} :
    (x, y) ∈ (difference keyOf original imported).both ↔
      x ∈ original ∧ y ∈ imported ∧ keyOf x = keyOf y := by
  refine ⟨mem_both, ?_⟩
  rintro ⟨hx, hy, hkey⟩
  have hfound := entryAt_of_mem himported hy
  rw [← hkey] at hfound
  have hpair : (x, y) ∈ (difference keyOf original imported).both.filter
      (fun pair => keyOf pair.1 == keyOf x) := by
    rw [pairsOf_both, entriesOf_eq_toList horiginal, entriesOf_eq_toList himported,
      entryAt_of_mem horiginal hx, hfound]
    exact List.mem_singleton_self _
  exact List.mem_of_mem_filter hpair

include horiginal in
theorem nodup_onlyOriginal : (difference keyOf original imported).onlyOriginal.Nodup := by
  have hall := (perm_originals keyOf original imported).nodup_iff.2 (List.Nodup.of_map _ horiginal)
  exact hall.of_append_right

include himported in
theorem nodup_onlyImported : (difference keyOf original imported).onlyImported.Nodup := by
  have hall := (perm_imports keyOf original imported).nodup_iff.2 (List.Nodup.of_map _ himported)
  exact hall.of_append_right

include horiginal in
theorem nodup_both : (difference keyOf original imported).both.Nodup := by
  have hall := (perm_originals keyOf original imported).nodup_iff.2 (List.Nodup.of_map _ horiginal)
  exact List.Nodup.of_map _ hall.of_append_left

end Distinct

/-! ### Exchanging the two lists -/

theorem flatMap_filter_of_nil {β : Type} {p : α → Bool} {f : α → List β} {xs : List α}
    (h : ∀ x ∈ xs, p x = false → f x = []) : (xs.filter p).flatMap f = xs.flatMap f := by
  induction xs with
  | nil => rfl
  | cons x xs ih =>
    obtain ⟨hx, hxs⟩ := List.forall_mem_cons.1 h
    rw [List.flatMap_cons, ← ih hxs]
    by_cases hp : p x = true
    · rw [List.filter_cons_of_pos hp, List.flatMap_cons]
    · rw [List.filter_cons_of_neg hp, hx (Bool.not_eq_true _ ▸ hp), List.nil_append]

/-- What is told of a key that only the originals have is told by their keys alone. -/
theorem flatMap_matchKeys {β : Type} {f : String → List β}
    (h : ∀ key, entriesOf keyOf key original = [] → f key = []) :
    (matchKeys keyOf original imported).flatMap f = (keysOf keyOf original).flatMap f := by
  have hnone : ((keysOf keyOf imported).filter
      fun key => !(keysOf keyOf original).contains key).flatMap f = [] := by
    apply List.flatMap_eq_nil_iff.2
    intro key hkey
    apply h
    apply entriesOf_eq_nil
    simpa using List.of_mem_filter hkey
  rw [matchKeys, List.flatMap_append, hnone, List.append_nil]

theorem onlyOriginal_eq_flatMap :
    (difference keyOf original imported).onlyOriginal = (keysOf keyOf original).flatMap fun key =>
      (entriesOf keyOf key original).drop (entriesOf keyOf key imported).length := by
  rw [onlyOriginal_difference]
  apply flatMap_matchKeys
  intro key hnone
  rw [hnone, List.drop_nil]

theorem both_eq_flatMap :
    (difference keyOf original imported).both = (keysOf keyOf original).flatMap fun key =>
      (entriesOf keyOf key original).zip (entriesOf keyOf key imported) := by
  rw [both_difference]
  apply flatMap_matchKeys
  intro key hnone
  rw [hnone, List.zip_nil_left]

section Exchanged

variable (h : (difference keyOf original imported).ambiguous = [])

include h

theorem onlyImported_eq_flatMap :
    (difference keyOf original imported).onlyImported = (keysOf keyOf imported).flatMap fun key =>
      (entriesOf keyOf key imported).drop (entriesOf keyOf key original).length := by
  have hlength := nodup_keys_iff.1 (nodup_keys_of_unambiguous h).2
  -- a key of an original leaves none of the imported entries over
  have hnone : ∀ key ∈ keysOf keyOf original,
      (entriesOf keyOf key imported).drop (entriesOf keyOf key original).length = [] := by
    intro key hkey
    obtain ⟨x, hx⟩ := mem_keysOf.1 hkey
    have hpos : 0 < (entriesOf keyOf key original).length :=
      List.length_pos_of_mem (mem_entriesOf.2 hx)
    apply List.drop_eq_nil_of_le
    exact Nat.le_trans (hlength key) hpos
  rw [onlyImported_difference, matchKeys, List.flatMap_append, List.flatMap_eq_nil_iff.2 hnone,
    List.nil_append]
  apply flatMap_filter_of_nil
  intro key _ hkey
  exact hnone key (by simpa using hkey)

theorem unambiguous_exchanged : (difference keyOf imported original).ambiguous = [] := by
  apply List.eq_nil_iff_forall_not_mem.2
  intro key hkey
  have hmem : key ∈ (difference keyOf original imported).ambiguous :=
    mem_ambiguous_difference.2 (mem_ambiguous_difference.1 hkey).symm
  rw [h] at hmem
  cases hmem

theorem onlyOriginal_exchanged :
    (difference keyOf imported original).onlyOriginal =
      (difference keyOf original imported).onlyImported := by
  rw [onlyOriginal_eq_flatMap, onlyImported_eq_flatMap h]

theorem onlyImported_exchanged :
    (difference keyOf imported original).onlyImported =
      (difference keyOf original imported).onlyOriginal :=
  (onlyOriginal_exchanged (unambiguous_exchanged h)).symm

omit h in
theorem both_exchanged :
    (difference keyOf imported original).both =
      (difference keyOf original imported).both.map Prod.swap := by
  have hcommon : (keysOf keyOf imported).filter ((keysOf keyOf original).contains ·) =
      (keysOf keyOf original).filter ((keysOf keyOf imported).contains ·) := by
    have hsorted : ∀ xs : List α, (keysOf keyOf xs).Pairwise (· < ·) :=
      fun xs => pairwise_sortDistinct _
    have hperm : ((keysOf keyOf imported).filter ((keysOf keyOf original).contains ·)).Perm
        ((keysOf keyOf original).filter ((keysOf keyOf imported).contains ·)) := by
      apply (List.perm_ext_iff_of_nodup (nodup_keysOf.filter _) (nodup_keysOf.filter _)).2
      intro key
      simp only [List.mem_filter, List.contains_iff_mem, and_comm]
    apply hperm.eq_of_pairwise _ ((hsorted imported).filter _) ((hsorted original).filter _)
    intro a b _ _ hab hba
    exact absurd (String.lt_trans hab hba) (String.lt_irrefl a)
  have hnone : ∀ key, (keysOf keyOf imported).contains key = false ∨
      (keysOf keyOf original).contains key = false →
      (entriesOf keyOf key imported).zip (entriesOf keyOf key original) = [] := by
    rintro key (hkey | hkey)
    · have hempty : entriesOf keyOf key imported = [] := entriesOf_eq_nil (by simpa using hkey)
      rw [hempty, List.zip_nil_left]
    · have hempty : entriesOf keyOf key original = [] := entriesOf_eq_nil (by simpa using hkey)
      rw [hempty, List.zip_nil_right]
  let pairsAt := fun key => (entriesOf keyOf key imported).zip (entriesOf keyOf key original)
  calc (difference keyOf imported original).both
      = (keysOf keyOf imported).flatMap pairsAt := both_eq_flatMap
    _ = ((keysOf keyOf imported).filter ((keysOf keyOf original).contains ·)).flatMap pairsAt :=
        (flatMap_filter_of_nil fun key _ hkey => hnone key (.inr hkey)).symm
    _ = ((keysOf keyOf original).filter ((keysOf keyOf imported).contains ·)).flatMap pairsAt := by
        rw [hcommon]
    _ = (keysOf keyOf original).flatMap pairsAt :=
        flatMap_filter_of_nil fun key _ hkey => hnone key (.inl hkey)
    _ = (difference keyOf original imported).both.map Prod.swap := by
        rw [both_eq_flatMap, List.map_flatMap]
        apply List.flatMap_congr
        intro key _
        exact (List.zip_swap _ _).symm

end Exchanged

/-! ### Rewriting the entries -/

section Map

variable {β : Type} {keyOf' : β → String} {f : α → β}

def Difference.map (f : α → β) (d : Difference α) : Difference β where
  onlyOriginal := d.onlyOriginal.map f
  onlyImported := d.onlyImported.map f
  both := d.both.map (Prod.map f f)
  ambiguous := d.ambiguous

theorem Difference.map_append (f : α → β) (d e : Difference α) :
    (d.append e).map f = (d.map f).append (e.map f) := by
  simp [map, append]

theorem Difference.map_ofKey (f : α → β) (key : String) (originals imports : List α) :
    (ofKey key originals imports).map f = ofKey key (originals.map f) (imports.map f) := by
  simp [map, ofKey, List.map_drop, List.zip_map]

variable (h : ∀ x, keyOf' (f x) = keyOf x)

include h

theorem entriesOf_map (key : String) (entries : List α) :
    entriesOf keyOf' key (entries.map f) = (entriesOf keyOf key entries).map f := by
  rw [entriesOf, entriesOf, List.filter_map]
  simp only [Function.comp_def, h]

theorem keysOf_map (entries : List α) : keysOf keyOf' (entries.map f) = keysOf keyOf entries := by
  rw [keysOf, keysOf, List.map_map]
  simp only [Function.comp_def, h]

theorem differenceAt_map (original imported : List α) (keys : List String) :
    differenceAt keyOf' (original.map f) (imported.map f) keys =
      (differenceAt keyOf original imported keys).map f := by
  induction keys with
  | nil => rfl
  | cons key keys ih =>
    change ((Difference.ofKey key _ _).append (differenceAt keyOf' _ _ keys)) =
      ((Difference.ofKey key _ _).append (differenceAt keyOf _ _ keys)).map f
    rw [Difference.map_append, Difference.map_ofKey, entriesOf_map h, entriesOf_map h, ih]

/-- Entries that are rewritten under the keys they have are matched as before. -/
theorem difference_map (original imported : List α) :
    difference keyOf' (original.map f) (imported.map f) =
      (difference keyOf original imported).map f := by
  unfold difference
  simp only [keysOf_map h, differenceAt_map h]
  rfl

end Map

end SchemaDrift
