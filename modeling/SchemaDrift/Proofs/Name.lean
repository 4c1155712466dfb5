/-
  SchemaDrift/Proofs/Name.lean
  ============================
  **What folding a name leaves alone.**

  Folding moves the letters `a` … `z` and nothing else.  So a name is free of the
  punctuation of signatures when its key is (`isPlain_congr`), and blank when its key is
  (`isBlank_congr`).  Lower case tells names apart as their keys do
  (`lowerName_eq_iff`).  The comparisons of lists of names are comparisons of the lists
  of their keys: `sameNames_iff`, `namedIn_iff`.

  Names that are put together with a separator can be told apart again when the separator
  is in none of them (`splitOn_intercalate`).
-/
import Mathlib.Data.List.Basic
import SchemaDrift.Text.Blank
import SchemaDrift.Text.Name

namespace SchemaDrift

/-! ### Characters -/

/-- The characters that separate names in a signature. -/
def isPunctuation (c : Char) : Bool := c == '.' || c == '>' || c == ';'

def isPlain (name : String) : Bool := name.toList.all fun c => !isPunctuation c

theorem toUpper_of_not_ascii {c : Char} (h : ¬ c.toNat < 128) : c.toUpper = c := by
  have hbeyond : ¬ ('a'.val ≤ c.val ∧ c.val ≤ 'z'.val) := by
    rintro ⟨_, hle⟩
    have hle' : c.toNat ≤ 122 := UInt32.le_iff_toNat_le.1 hle
    omega
  exact dif_neg hbeyond

theorem toLower_of_not_ascii {c : Char} (h : ¬ c.toNat < 128) : c.toLower = c := by
  have hbeyond : ¬ ('A'.val ≤ c.val ∧ c.val ≤ 'Z'.val) := by
    rintro ⟨_, hle⟩
    have hle' : c.toNat ≤ 90 := UInt32.le_iff_toNat_le.1 hle
    omega
  exact dif_neg hbeyond

/-- What holds of the ASCII characters and of every character beside itself holds of a character
    and what becomes of it, where only ASCII characters are changed. -/
theorem ascii_induction {P : Char → Char → Prop} {change : Char → Char}
    (hchange : ∀ c, ¬ c.toNat < 128 → change c = c) (hself : ∀ c, P c c)
    (hascii : ∀ n < 128, P (Char.ofNat n) (change (Char.ofNat n))) (c : Char) :
    P c (change c) := by
  by_cases hsmall : c.toNat < 128
  · have h := hascii c.toNat hsmall
    rwa [Char.ofNat_toNat] at h
  · rw [hchange c hsmall]
    exact hself c

theorem toUpper_induction {P : Char → Char → Prop} (hself : ∀ c, P c c)
    (hascii : ∀ n < 128, P (Char.ofNat n) (Char.ofNat n).toUpper) (c : Char) : P c c.toUpper :=
  ascii_induction (fun _ => toUpper_of_not_ascii) hself hascii c

theorem isPunctuation_toUpper (c : Char) : isPunctuation c.toUpper = isPunctuation c := by
  refine toUpper_induction (P := fun c d => isPunctuation d = isPunctuation c) (fun _ => rfl) ?_ c
  decide

theorem isBlankChar_toUpper (c : Char) : isBlankChar c.toUpper = isBlankChar c := by
  refine toUpper_induction (P := fun c d => isBlankChar d = isBlankChar c) (fun _ => rfl) ?_ c
  decide

theorem toUpper_toUpper (c : Char) : c.toUpper.toUpper = c.toUpper := by
  refine toUpper_induction (P := fun c d => d.toUpper = c.toUpper) (fun _ => rfl) ?_ c
  decide

theorem toLower_toUpper (c : Char) : c.toUpper.toLower = c.toLower := by
  refine toUpper_induction (P := fun c d => d.toLower = c.toLower) (fun _ => rfl) ?_ c
  decide

theorem toUpper_toLower (c : Char) : c.toLower.toUpper = c.toUpper := by
  refine ascii_induction (P := fun c d => d.toUpper = c.toUpper)
    (fun _ => toLower_of_not_ascii) (fun _ => rfl) ?_ c
  decide

/-! ### Names -/

@[simp] theorem foldName_foldName (name : String) : foldName (foldName name) = foldName name := by
  simp only [foldName, String.toList_ofList, List.map_map, Function.comp_def, toUpper_toUpper]

theorem foldName_append (a b : String) : foldName (a ++ b) = foldName a ++ foldName b := by
  simp only [foldName, String.toList_append, List.map_append, String.ofList_append]

theorem foldName_intercalate (separator : String) (texts : List String) :
    foldName (String.intercalate separator texts) =
      String.intercalate (foldName separator) (texts.map foldName) := by
  induction texts with
  | nil => rfl
  | cons text texts ih =>
    cases texts with
    | nil => simp
    | cons next texts =>
      rw [String.intercalate_cons_cons, foldName_append, foldName_append, ih]
      simp [String.intercalate_cons_cons]

theorem foldName_lowerName (name : String) : foldName (lowerName name) = foldName name := by
  simp only [foldName, lowerName, String.toList_ofList, List.map_map, Function.comp_def,
    toUpper_toLower]

theorem lowerName_foldName (name : String) : lowerName (foldName name) = lowerName name := by
  simp only [foldName, lowerName, String.toList_ofList, List.map_map, Function.comp_def,
    toLower_toUpper]

/-- Names are the same in lower case when they have the same key. -/
theorem lowerName_eq_iff {a b : String} : lowerName a = lowerName b ↔ foldName a = foldName b := by
  constructor
  · intro h
    rw [← foldName_lowerName a, h, foldName_lowerName]
  · intro h
    rw [← lowerName_foldName a, h, lowerName_foldName]

theorem isBlank_foldName (name : String) : isBlank (foldName name) = isBlank name := by
  rw [isBlank, foldName, String.toList_ofList, List.all_map]
  simp only [Function.comp_def, isBlankChar_toUpper]
  rfl

theorem isBlank_congr {a b : String} (h : foldName a = foldName b) : isBlank a = isBlank b := by
  rw [← isBlank_foldName a, h, isBlank_foldName]

theorem isPlain_foldName (name : String) : isPlain (foldName name) = isPlain name := by
  rw [isPlain, foldName, String.toList_ofList, List.all_map]
  simp only [Function.comp_def, isPunctuation_toUpper]
  rfl

theorem isPlain_congr {a b : String} (h : foldName a = foldName b) : isPlain a = isPlain b := by
  rw [← isPlain_foldName a, h, isPlain_foldName]

theorem notMem_of_isPlain {name : String} (h : isPlain name = true) {c : Char}
    (hc : isPunctuation c = true) : c ∉ name.toList := by
  intro hmem
  have := List.all_eq_true.1 h c hmem
  simp [hc] at this

/-! ### Lists of names -/

theorem sameNames_iff {as bs : List String} :
    sameNames as bs = true ↔ as.map foldName = bs.map foldName := by
  induction as generalizing bs with
  | nil => cases bs <;> simp [sameNames]
  | cons a as ih =>
    cases bs with
    | nil => simp [sameNames]
    | cons b bs => simp [sameNames, sameName_iff, ih]

theorem namedIn_iff {names : List String} {name : String} :
    namedIn names name = true ↔ foldName name ∈ names.map foldName := by
  simp only [namedIn, List.any_eq_true, sameName_iff, List.mem_map]
  exact exists_congr fun _ => and_congr_right fun _ => eq_comm

theorem splitOn_intercalate {separator : String} {c : Char} (hseparator : separator.toList = [c])
    {names : List String} (hnames : ∀ name ∈ names, c ∉ name.toList) (hne : names ≠ []) :
    (String.intercalate separator names).toList.splitOn c = names.map String.toList := by
  rw [String.toList_intercalate, hseparator]
  refine List.splitOn_intercalate c (fun text htext => ?_) (by simpa using hne)
  obtain ⟨name, hname, rfl⟩ := List.mem_map.1 htext
  exact hnames name hname

end SchemaDrift
