/-
  SchemaDrift/Proofs/Keyed.lean
  =============================
  **Lists of entries that are found by a key.**

  The tables of a model and the columns of a table are lists in which the first entry
  of a key is the one that counts.  What an edit does to such a list is told by what
  is found under each key afterwards: one equation for each of the four ways in which
  lists are edited.  Where the keys are distinct, every edit keeps them so.
-/
import Mathlib.Data.List.Nodup
import SchemaDrift.Table

namespace SchemaDrift

variable {α : Type} {keyOf : α → String} {entries : List α}

/-- The first entry of a key. -/
def entryAt (keyOf : α → String) (entries : List α) (key : String) : Option α :=
  entries.find? fun entry => keyOf entry == key

theorem keyOf_entryAt {key : String} {x : α} (h : entryAt keyOf entries key = some x) :
    keyOf x = key := by
  have hfound := List.find?_some h
  exact beq_iff_eq.1 hfound

theorem mem_of_entryAt {key : String} {x : α} (h : entryAt keyOf entries key = some x) :
    x ∈ entries := List.mem_of_find?_eq_some h

theorem isSome_entryAt {key : String} :
    (entryAt keyOf entries key).isSome = true ↔ key ∈ entries.map keyOf := by
  simp [entryAt, List.find?_isSome]

theorem entryAt_eq_none {key : String} :
    entryAt keyOf entries key = none ↔ key ∉ entries.map keyOf := by
  rw [← isSome_entryAt, Bool.not_eq_true, Option.isSome_eq_false_iff, Option.isNone_iff_eq_none]

/-- Where the keys are distinct, every entry is found under its key. -/
theorem entryAt_of_mem (h : (entries.map keyOf).Nodup) {x : α} (hx : x ∈ entries) :
    entryAt keyOf entries (keyOf x) = some x := by
  obtain ⟨y, hy⟩ := Option.isSome_iff_exists.1 (isSome_entryAt.2 (List.mem_map_of_mem hx))
  rw [hy, List.inj_on_of_nodup_map h (mem_of_entryAt hy) hx (keyOf_entryAt hy)]

/-- Where a part of the keys is left out, the others lead to what they led to. -/
theorem entryAt_filter (scope : String → Bool) (key : String) :
    entryAt keyOf (entries.filter fun x => scope (keyOf x)) key =
      if scope key then entryAt keyOf entries key else none := by
  rw [entryAt, List.find?_filter]
  cases hscope : scope key with
  | true =>
    rw [if_pos rfl, entryAt]
    refine congrArg (List.find? · entries) (funext fun x => ?_)
    by_cases hx : keyOf x = key
    · simp [hx, hscope]
    · simp [hx]
  | false =>
    rw [if_neg (by simp), List.find?_eq_none]
    intro x _ hx
    obtain ⟨hscope', heq⟩ := by simpa using hx
    rw [heq, hscope] at hscope'
    cases hscope'

/-- Lists with distinct keys, under which the same keys are found, have the same keys. -/
theorem perm_keys {xs ys : List α} (hxs : (xs.map keyOf).Nodup) (hys : (ys.map keyOf).Nodup)
    (h : ∀ key, (entryAt keyOf xs key).isSome = (entryAt keyOf ys key).isSome) :
    (xs.map keyOf).Perm (ys.map keyOf) := by
  refine (List.perm_ext_iff_of_nodup hxs hys).2 fun key => ?_
  rw [← isSome_entryAt, h, isSome_entryAt]

/-! ### Adding an entry -/

theorem entryAt_append_singleton {x : α} (h : entryAt keyOf entries (keyOf x) = none)
    (key : String) :
    entryAt keyOf (entries ++ [x]) key =
      if keyOf x = key then some x else entryAt keyOf entries key := by
  rw [entryAt, List.find?_append]
  by_cases hkey : keyOf x = key
  · subst hkey
    rw [if_pos rfl, ← entryAt, h]
    simp
  · rw [if_neg hkey]
    simp [hkey, entryAt]

theorem nodup_append_singleton {x : α} (hnodup : (entries.map keyOf).Nodup)
    (h : entryAt keyOf entries (keyOf x) = none) : ((entries ++ [x]).map keyOf).Nodup := by
  rw [List.map_append, List.map_singleton]
  refine hnodup.append (List.nodup_singleton _) fun key hmem hx => ?_
  rw [List.mem_singleton.1 hx] at hmem
  exact entryAt_eq_none.1 h hmem

/-! ### Removing an entry -/

theorem entryAt_eraseP (hnodup : (entries.map keyOf).Nodup) (removed key : String) :
    entryAt keyOf (entries.eraseP fun entry => keyOf entry == removed) key =
      if removed = key then none else entryAt keyOf entries key := by
  induction entries with
  | nil => simp [entryAt]
  | cons x xs ih =>
    obtain ⟨hx, hxs⟩ := List.nodup_cons.1 hnodup
    by_cases hremoved : keyOf x = removed
    · rw [List.eraseP_cons_of_pos (by simpa using hremoved)]
      by_cases hkey : removed = key
      · rw [if_pos hkey, entryAt_eq_none, ← hkey, ← hremoved]
        exact hx
      · rw [if_neg hkey, entryAt, entryAt, List.find?_cons_of_neg (by simp [hremoved, hkey])]
    · rw [List.eraseP_cons_of_neg (by simpa using hremoved), entryAt, entryAt, List.find?_cons,
        List.find?_cons]
      split
      next hkey =>
        rw [if_neg fun h => hremoved ((beq_iff_eq.1 hkey).trans h.symm)]
      next => exact ih hxs

theorem nodup_eraseP (hnodup : (entries.map keyOf).Nodup) (p : α → Bool) :
    ((entries.eraseP p).map keyOf).Nodup :=
  hnodup.sublist (List.eraseP_sublist.map _)

/-! ### Changing an entry in place -/

theorem map_keyOf_modifyFirst {change : α → α} {changed : String}
    (hkey : ∀ x, keyOf x = changed → keyOf (change x) = changed) :
    (modifyFirst (fun entry => keyOf entry == changed) change entries).map keyOf =
      entries.map keyOf := by
  induction entries with
  | nil => rfl
  | cons x xs ih =>
    rw [modifyFirst]
    split
    next hx =>
      have hchanged : keyOf x = changed := beq_iff_eq.1 hx
      rw [List.map_cons, List.map_cons, hkey x hchanged, hchanged]
    next => rw [List.map_cons, List.map_cons, ih]

theorem entryAt_modifyFirst {change : α → α} {changed : String}
    (hkey : ∀ x, keyOf x = changed → keyOf (change x) = changed) (key : String) :
    entryAt keyOf (modifyFirst (fun entry => keyOf entry == changed) change entries) key =
      if changed = key then (entryAt keyOf entries key).map change
      else entryAt keyOf entries key := by
  induction entries with
  | nil => simp [modifyFirst, entryAt]
  | cons x xs ih =>
    rw [modifyFirst]
    by_cases hchanged : keyOf x = changed
    · rw [if_pos (beq_iff_eq.2 hchanged)]
      by_cases heq : changed = key
      · rw [if_pos heq, entryAt, entryAt,
          List.find?_cons_of_pos (by simp [hkey x hchanged, heq]),
          List.find?_cons_of_pos (by simp [hchanged, heq]), Option.map_some]
      · rw [if_neg heq, entryAt, entryAt,
          List.find?_cons_of_neg (by simp [hkey x hchanged, heq]),
          List.find?_cons_of_neg (by simp [hchanged, heq])]
    · rw [if_neg (by simpa using hchanged), entryAt, entryAt, List.find?_cons, List.find?_cons]
      split
      next hx =>
        rw [if_neg fun h => hchanged ((beq_iff_eq.1 hx).trans h.symm)]
      next => exact ih

theorem entryAt_map {change : α → α} (hkey : ∀ x, keyOf (change x) = keyOf x) (key : String) :
    entryAt keyOf (entries.map change) key = (entryAt keyOf entries key).map change := by
  rw [entryAt, List.find?_map]
  simp only [Function.comp_def, hkey]
  rfl

end SchemaDrift
