/-
  SchemaDrift/Proofs/DeclaredType.lean
  ====================================
  **A type that was read from a declaration is read again from the texts that are written
  for it.**

  There are three tables of names: the one that declarations are looked up in, the one for
  messages, and that of PostgreSQL.  They agree: each text that is written for a type with a
  known name is a declaration of this very type, whatever its length, precision and scale.

  A type without a known name is kept as the text that was looked up, which has no white
  space around it and no lower case letter.  Trimming and folding leave such a text alone
  (`IsSettled`), so it is looked up as it is and found to be unknown again.  Main statement:
  `declaredTypes_stable`.
-/
import Mathlib.Data.List.TakeDrop
import SchemaDrift.Proofs.Name
import SchemaDrift.Proofs.StatementText

namespace SchemaDrift

/-! ### Texts that are looked up as they are -/

/-- A text without white space at either end. -/
structure IsTrimmed (cs : List Char) : Prop where
  front : StartsOutside isBlankChar cs
  back : StartsOutside isBlankChar cs.reverse

theorem startsOutside_dropWhile (p : Char → Bool) (cs : List Char) :
    StartsOutside p (cs.dropWhile p) := by
  intro c hc
  have hhead := List.head?_dropWhile_not p cs
  rwa [hc] at hhead

theorem startsOutside_of_prefix {p : Char → Bool} {cs ds : List Char} (h : cs <+: ds)
    (hds : StartsOutside p ds) : StartsOutside p cs := by
  obtain ⟨rest, rfl⟩ := h
  intro c hc
  exact hds c (List.mem_head?_append_of_mem_head? hc)

theorem isTrimmed_trimBlank (cs : List Char) : IsTrimmed (trimBlank cs) := by
  let back := (cs.dropWhile isBlankChar).reverse
  constructor
  · have hprefix : trimBlank cs <+: cs.dropWhile isBlankChar := by
      have hsuffix := List.reverse_prefix.2 (List.dropWhile_suffix (l := back) isBlankChar)
      rwa [List.reverse_reverse] at hsuffix
    exact startsOutside_of_prefix hprefix (startsOutside_dropWhile _ _)
  · rw [trimBlank, List.reverse_reverse]
    exact startsOutside_dropWhile _ _

theorem isTrimmed_of_forall {cs : List Char} (h : ∀ c ∈ cs, isBlankChar c = false) :
    IsTrimmed cs := by
  constructor
  · intro c hc
    exact h c (List.mem_of_mem_head? hc)
  · intro c hc
    exact h c (List.mem_reverse.1 (List.mem_of_mem_head? hc))

theorem trimBlank_append {pad cs : List Char} (hpad : ∀ c ∈ pad, isBlankChar c = true)
    (h : IsTrimmed cs) : trimBlank (pad ++ cs) = cs := by
  rw [trimBlank, dropWhile_block hpad h.front, dropWhile_of_startsOutside h.back,
    List.reverse_reverse]

theorem trimBlank_of_isTrimmed {cs : List Char} (h : IsTrimmed cs) : trimBlank cs = cs :=
  trimBlank_append (List.forall_mem_nil _) h

/-- A trimmed text without lower case letters. -/
structure IsSettled (cs : List Char) : Prop extends IsTrimmed cs where
  upper : ∀ c ∈ cs, c.toUpper = c

theorem isSettled_map_toUpper {cs : List Char} (h : IsTrimmed cs) :
    IsSettled (cs.map Char.toUpper) := by
  have hhead : ∀ ds : List Char, StartsOutside isBlankChar ds →
      StartsOutside isBlankChar (ds.map Char.toUpper) := by
    intro ds hds c hc
    rw [List.head?_map] at hc
    obtain ⟨d, hd, rfl⟩ := Option.map_eq_some_iff.1 hc
    rw [isBlankChar_toUpper]
    exact hds d hd
  refine ⟨⟨hhead cs h.front, ?_⟩, ?_⟩
  · rw [← List.map_reverse]
    exact hhead _ h.back
  · intro c hc
    obtain ⟨d, -, rfl⟩ := List.mem_map.1 hc
    exact toUpper_toUpper d

namespace SqlType

/-- The type that a settled declaration has a known name for. -/
def known? (text : List Char) : Option SqlType :=
  let base := text.takeWhile (· ≠ '(')
  match text.dropWhile (· ≠ '(') with
  | [] => ofBase? (String.ofList base) []
  | _ :: rest => ofBase? (String.ofList (trimBlank base)) (argumentNumbers rest)

/-- The type of a settled declaration. -/
def ofSettled (text : List Char) : SqlType := (known? text).getD (.other (String.ofList text))

theorem ofDeclared_eq_ofSettled (declared : String) :
    ofDeclared declared = ofSettled ((trimBlank declared.toList).map Char.toUpper) := by
  rw [ofDeclared, List.span_eq_takeWhile_dropWhile]
  rfl

theorem ofDeclared_of_isSettled {text : List Char} (h : IsSettled text) :
    ofDeclared (String.ofList text) = ofSettled text := by
  have hfolded : text.map Char.toUpper = text := by
    rw [List.map_congr_left h.upper, List.map_id']
  rw [ofDeclared_eq_ofSettled, String.toList_ofList, trimBlank_of_isTrimmed h.toIsTrimmed, hfolded]

/-! ### Types without a known name -/

theorem all_isKnown_ofBase? (base : String) (numbers : List Nat) :
    (ofBase? base numbers).all isKnown = true := by
  cases numbers with
  | nil =>
    unfold ofBase?
    split <;> rfl
  | cons length rest =>
    unfold ofBase?
    split <;> rfl

/-- A declaration without a known name is kept as it is. -/
theorem ofSettled_eq (text : List Char) :
    (ofSettled text).isKnown = true ∨ ofSettled text = .other (String.ofList text) := by
  have hall : (known? text).all isKnown = true := by
    rw [known?]
    split
    · exact all_isKnown_ofBase? _ _
    · exact all_isKnown_ofBase? _ _
  rw [ofSettled]
  cases hknown : known? text with
  | none => exact .inr rfl
  | some t =>
    rw [hknown] at hall
    exact .inl hall

/-! ### Types with arguments -/

/-- The numbers of a type as they stand between its parentheses. -/
def numerals (ns : List Nat) : List Char := ", ".toList.intercalate (ns.map writeDecimal)

theorem numerals_singleton (n : Nat) : numerals [n] = writeDecimal n := by
  simp [numerals]

theorem numerals_cons (m n : Nat) (ns : List Nat) :
    numerals (m :: n :: ns) = writeDecimal m ++ ',' :: ' ' :: numerals (n :: ns) := by
  rw [numerals, List.map_cons, List.map_cons, List.intercalate_cons_cons, List.append_assoc]
  rfl

theorem argumentsText_cons (n : Nat) (ns : List Nat) :
    argumentsText (n :: ns) = '(' :: (numerals (n :: ns) ++ [')']) := rfl

/-- Nothing in a list of numerals is changed when it is folded, or closes it. -/
theorem isArgument_numerals (ns : List Nat) : ∀ c ∈ numerals ns, c.toUpper = c ∧ c ≠ ')' := by
  have hdigits : ∀ n, ∀ c ∈ writeDecimal n, c.toUpper = c ∧ c ≠ ')' :=
    forall_mem_writeDecimal (by decide)
  induction ns with
  | nil => simp [numerals]
  | cons n ns ih =>
    intro c hc
    cases ns with
    | nil =>
      rw [numerals_singleton] at hc
      exact hdigits n c hc
    | cons m ns =>
      simp only [numerals_cons, List.mem_append, List.mem_cons] at hc
      rcases hc with hc | rfl | rfl | hc
      · exact hdigits n c hc
      · decide
      · decide
      · exact ih c hc

theorem splitAtCommas_of_notMem {cs : List Char} (h : ',' ∉ cs) : splitAtCommas cs = [cs] := by
  induction cs with
  | nil => rfl
  | cons c cs ih =>
    rw [List.mem_cons, not_or] at h
    rw [splitAtCommas, if_neg (Ne.symm h.1), ih h.2]

theorem splitAtCommas_append {cs : List Char} (h : ',' ∉ cs) (rest : List Char) :
    splitAtCommas (cs ++ ',' :: rest) = cs :: splitAtCommas rest := by
  induction cs with
  | nil => exact if_pos rfl
  | cons c cs ih =>
    rw [List.mem_cons, not_or] at h
    rw [List.cons_append, splitAtCommas, if_neg (Ne.symm h.1), ih h.2]

theorem argumentNumbers_closed {arguments : List Char} (h : ')' ∉ arguments) :
    argumentNumbers (arguments ++ [')']) =
      (splitAtCommas arguments).filterMap (readWord ∘ trimBlank) := by
  have hopen : StartsOutside (· = ')') arguments.reverse := by
    intro c hc
    apply decide_eq_false
    rintro rfl
    exact h (List.mem_reverse.1 (List.mem_of_mem_head? hc))
  have hdropped : ((arguments ++ [')']).reverse.dropWhile (· = ')')).reverse = arguments := by
    rw [List.reverse_append, List.reverse_singleton, List.singleton_append,
      List.dropWhile_cons_of_pos (by decide), dropWhile_of_startsOutside hopen,
      List.reverse_reverse]
  rw [argumentNumbers, hdropped]

/-- A name that stands in a declaration as it is looked up. -/
def IsBaseName (base : String) : Prop :=
  base.toList ≠ [] ∧ ∀ c ∈ base.toList, c.toUpper = c ∧ isBlankChar c = false ∧ c ≠ '('

theorem isBaseName_iff {base : String} :
    (!base.toList.isEmpty && base.toList.all fun c =>
      decide (c.toUpper = c ∧ isBlankChar c = false ∧ c ≠ '(')) = true ↔ IsBaseName base := by
  simp only [IsBaseName, Bool.and_eq_true, Bool.not_eq_true', List.isEmpty_eq_false_iff,
    List.all_eq_true, decide_eq_true_eq]

instance (base : String) : Decidable (IsBaseName base) := decidable_of_iff _ isBaseName_iff

theorem readWord_writeDecimal {n : Nat} (h : n < wordBound) :
    readWord (writeDecimal n) = some n := by
  have hplus : ∀ c ∈ writeDecimal n, c ≠ '+' := forall_mem_writeDecimal (by decide) n
  unfold readWord
  split
  next rest heq =>
    rw [heq] at hplus
    exact absurd rfl (hplus '+' List.mem_cons_self)
  next => simp [readDecimal_writeDecimal, h]

/-- White space in front of the first argument is passed over. -/
theorem numbers_blank_cons (cs : List Char) :
    (splitAtCommas (' ' :: cs)).filterMap (readWord ∘ trimBlank) =
      (splitAtCommas cs).filterMap (readWord ∘ trimBlank) := by
  rw [splitAtCommas, if_neg (by decide)]
  cases splitAtCommas cs with
  | nil => rfl
  | cons part parts => rfl

/-- **Numerals are read as the numbers they were written for.** -/
theorem numbers_numerals {ns : List Nat} (h : ∀ n ∈ ns, n < wordBound) :
    (splitAtCommas (numerals ns)).filterMap (readWord ∘ trimBlank) = ns := by
  induction ns with
  | nil => rfl
  | cons n ns ih =>
    obtain ⟨hn, hns⟩ := List.forall_mem_cons.1 h
    have hcomma : ',' ∉ writeDecimal n := fun hmem =>
      forall_mem_writeDecimal (P := (· ≠ ',')) (by decide) n ',' hmem rfl
    have htrimmed : IsTrimmed (writeDecimal n) :=
      isTrimmed_of_forall (forall_mem_writeDecimal (by decide) n)
    have hread : (readWord ∘ trimBlank) (writeDecimal n) = some n := by
      rw [Function.comp_apply, trimBlank_of_isTrimmed htrimmed, readWord_writeDecimal hn]
    cases ns with
    | nil =>
      rw [numerals_singleton, splitAtCommas_of_notMem hcomma, List.filterMap_cons_some hread,
        List.filterMap_nil]
    | cons m ns =>
      rw [numerals_cons, splitAtCommas_append hcomma, List.filterMap_cons_some hread,
        numbers_blank_cons, ih hns]

section WithArguments

variable {base written : String} {n : Nat} {ns : List Nat} (hbase : IsBaseName base)
  (hwritten : written.toList = base.toList ++ argumentsText (n :: ns))

include hbase hwritten

theorem isSettled_of_toList : IsSettled written.toList := by
  obtain ⟨hne, hall⟩ := hbase
  rw [hwritten]
  refine ⟨⟨?_, ?_⟩, ?_⟩
  · cases hchars : base.toList with
    | nil => exact absurd hchars hne
    | cons c cs =>
      apply startsOutside_cons.2
      exact (hall c (hchars ▸ List.mem_cons_self)).2.1
  · rw [argumentsText_cons, ← List.cons_append, ← List.append_assoc, List.reverse_concat']
    exact startsOutside_cons.2 (by decide)
  · intro c hc
    simp only [argumentsText_cons, List.mem_append, List.mem_cons, List.not_mem_nil, or_false] at hc
    rcases hc with hc | rfl | hc | rfl
    · exact (hall c hc).1
    · decide
    · exact (isArgument_numerals _ c hc).1
    · decide

/-- A name with numerals is looked up with the numbers. -/
theorem ofDeclared_of_toList (hnumbers : ∀ m ∈ n :: ns, m < wordBound) :
    ofDeclared written = (ofBase? base (n :: ns)).getD (.other written) := by
  have hdeclared := ofDeclared_of_isSettled (isSettled_of_toList hbase hwritten)
  obtain ⟨-, hall⟩ := hbase
  have hopen : ∀ c ∈ base.toList, decide (c ≠ '(') = true := by
    intro c hc
    exact decide_eq_true (hall c hc).2.2
  have hrest : StartsOutside (· ≠ '(') ('(' :: (numerals (n :: ns) ++ [')'])) :=
    startsOutside_cons.2 (by decide)
  have htrimmed : IsTrimmed base.toList := isTrimmed_of_forall fun c hc => (hall c hc).2.1
  have hclosed : ')' ∉ numerals (n :: ns) := fun hmem => (isArgument_numerals _ ')' hmem).2 rfl
  rw [String.ofList_toList] at hdeclared
  rw [hdeclared, ofSettled, known?, String.ofList_toList, hwritten]
  rw [argumentsText_cons, takeWhile_block hopen hrest, dropWhile_block hopen hrest]
  simp only [trimBlank_of_isTrimmed htrimmed, String.ofList_toList, argumentNumbers_closed hclosed,
    numbers_numerals hnumbers]

/-- A name with the numbers of a type is read as the type. -/
theorem ofDeclared_eq_of_toList {t : SqlType} (hknown : ofBase? base (n :: ns) = some t)
    (hnumbers : ∀ m ∈ n :: ns, m < wordBound) : ofDeclared written = t := by
  rw [ofDeclared_of_toList hbase hwritten hnumbers, hknown, Option.getD_some]

end WithArguments

/-! ### Reading again what is written -/

theorem forall_mem_length {length : UInt64} : ∀ n ∈ [length.toNat], n < wordBound :=
  List.forall_mem_singleton.2 length.toNat_lt

theorem forall_mem_bytes {precision scale : UInt8} :
    ∀ n ∈ [precision.toNat, scale.toNat], n < wordBound := by
  have hbyte : ∀ n : UInt8, n.toNat < wordBound := fun n => Nat.lt_trans n.toNat_lt (by decide)
  exact List.forall_mem_cons.2 ⟨hbyte _, List.forall_mem_singleton.2 (hbyte _)⟩

theorem ofDeclared_display {t : SqlType} (h : t.isKnown = true) : ofDeclared t.display = t := by
  cases t with
  | varchar length =>
    have hbase : IsBaseName "VARCHAR" := by decide +kernel
    have htext : (varchar length).display.toList =
        "VARCHAR".toList ++ argumentsText [length.toNat] := by
      simp [display, argumentsText, SchemaDrift.decimal]
    exact ofDeclared_eq_of_toList hbase htext (ofBase?_varchar length) forall_mem_length
  | char length =>
    have hbase : IsBaseName "CHAR" := by decide +kernel
    have htext : (char length).display.toList =
        "CHAR".toList ++ argumentsText [length.toNat] := by
      simp [display, argumentsText, SchemaDrift.decimal]
    exact ofDeclared_eq_of_toList hbase htext (ofBase?_char length) forall_mem_length
  | decimal precision scale =>
    have hbase : IsBaseName "DECIMAL" := by decide +kernel
    have htext : (decimal precision scale).display.toList =
        "DECIMAL".toList ++ argumentsText [precision.toNat, scale.toNat] := by
      simp [display, argumentsText, SchemaDrift.decimal]
    exact ofDeclared_eq_of_toList hbase htext (ofBase?_decimal (by decide) precision scale)
      forall_mem_bytes
  | other declared => cases h
  | _ => decide +kernel

theorem ofDeclared_postgresType {t : SqlType} (h : t.isKnown = true) :
    ofDeclared (Dialect.postgresType t) = t := by
  cases t with
  | varchar length =>
    have hsame : Dialect.postgresType (varchar length) = (varchar length).display := rfl
    rw [hsame, ofDeclared_display h]
  | char length =>
    have hsame : Dialect.postgresType (char length) = (char length).display := rfl
    rw [hsame, ofDeclared_display h]
  | decimal precision scale =>
    have hbase : IsBaseName "NUMERIC" := by decide +kernel
    have htext : (Dialect.postgresType (decimal precision scale)).toList =
        "NUMERIC".toList ++ argumentsText [precision.toNat, scale.toNat] := by
      simp [Dialect.postgresType, argumentsText, SchemaDrift.decimal]
    exact ofDeclared_eq_of_toList hbase htext (ofBase?_decimal (by decide) precision scale)
      forall_mem_bytes
  | other declared => cases h
  | _ => decide +kernel

end SqlType

open SqlType in
/-- **Types are stable under reading them again.**  Whatever text a type was declared with, the text
    of the type in messages and its name in PostgreSQL are declarations of the same type.  Every
    type but those without a known name is declared by some text. -/
theorem declaredTypes_stable :
    (∀ declared, (ofDeclared (ofDeclared declared).display = ofDeclared declared) ∧
      ofDeclared (Dialect.postgresType (ofDeclared declared)) = ofDeclared declared) ∧
    ∀ t : SqlType, t.isKnown = true →
      (∃ declared, ofDeclared declared = t) ∧ ofDeclared t.display = t ∧
        ofDeclared (Dialect.postgresType t) = t := by
  constructor
  · intro declared
    rw [ofDeclared_eq_ofSettled declared]
    have hsettled := isSettled_map_toUpper (isTrimmed_trimBlank declared.toList)
    rcases ofSettled_eq ((trimBlank declared.toList).map Char.toUpper) with hknown | hother
    · exact ⟨ofDeclared_display hknown, ofDeclared_postgresType hknown⟩
    · -- the display text and the name in PostgreSQL are the text that was looked up
      have hagain := ofDeclared_of_isSettled hsettled
      rw [hother] at hagain ⊢
      exact ⟨hagain, hagain⟩
  · intro t ht
    exact ⟨⟨t.display, ofDeclared_display ht⟩, ofDeclared_display ht, ofDeclared_postgresType ht⟩

/-- The longest length that there is, and a text without a known name. -/
theorem declaredTypes_stable_longest :
    SqlType.ofDeclared "VARCHAR(18446744073709551615)" = .varchar 18446744073709551615 ∧
      SqlType.ofDeclared "  polygon( 4 , Wgs84 " = .other "POLYGON( 4 , WGS84" ∧
      SqlType.ofDeclared "POLYGON( 4 , WGS84" = .other "POLYGON( 4 , WGS84" := by
  have hlongest := (declaredTypes_stable.2 (.varchar 18446744073709551615) rfl).2.1
  have hdisplay : (SqlType.varchar 18446744073709551615).display =
      "VARCHAR(18446744073709551615)" := by decide +kernel
  rw [hdisplay] at hlongest
  have hpolygon := (declaredTypes_stable.1 "  polygon( 4 , Wgs84 ").1
  have hread : SqlType.ofDeclared "  polygon( 4 , Wgs84 " = .other "POLYGON( 4 , WGS84" := by
    decide +kernel
  rw [hread] at hpolygon
  exact ⟨hlongest, hread, hpolygon⟩

end SchemaDrift
