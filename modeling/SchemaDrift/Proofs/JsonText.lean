/-
  SchemaDrift/Proofs/JsonText.lean
  ================================
  **What is written as JSON is read back.**

  The writer's values are plain: their numerals are those of whole numbers, and their
  strings are texts.  A string is read back escape by escape (`readString_writeString`),
  a numeral as far as it goes on (`scanNumber_writeDecimal`), and a value by induction on
  the reader's fuel, for values, items and fields at once (`ReadsBack`): the fuel is
  counted against the length of what was written, two rounds for each character.  The
  layout is any that adds nothing but white space.

  Main statement: `Json.read_write`.
-/
import Mathlib.Data.List.DropRight
import Mathlib.Data.List.TakeDrop
import SchemaDrift.Json.Read
import SchemaDrift.Json.Write
import SchemaDrift.Proofs.Scanning

namespace SchemaDrift

namespace Json

/-! ### Strings -/

/-- A piece of a literal that stands for a character. -/
def Piece.Denotes (p : Piece) (c : Char) : Prop :=
  p = .char c ∨ p = .escaped c.toNat ∧ c.toNat < 0x20

/-- A text that is scanned as one piece, whatever follows it. -/
def ScansAs (text : List Char) (p : Piece) : Prop :=
  ∀ cs, scanString (text ++ cs) = (scanString cs).map fun (pieces, rest) => (p :: pieces, rest)

theorem scansAs_simple {e c : Char} (hu : e ≠ 'u') (he : simpleEscape? e = some c) :
    ScansAs ['\\', e] (.char c) := by
  intro cs
  have hscan : scanString ('\\' :: e :: cs) = (do
      let c ← simpleEscape? e
      let (pieces, rest) ← scanString cs
      return (.char c :: pieces, rest)) := by
    rw [scanString]
    intro _ _ _ _ _ h
    exact absurd h hu
  rw [List.cons_append, List.cons_append, List.nil_append, hscan, he]
  cases scanString cs <;> rfl

theorem unitOf?_hexDigit {n : Nat} (h : n < 0x20) :
    unitOf? '0' '0' (hexDigit (n / 16)) (hexDigit (n % 16)) = some n := by
  revert n
  decide

theorem scansAs_control {n : Nat} (h : n < 0x20) :
    ScansAs ['\\', 'u', '0', '0', hexDigit (n / 16), hexDigit (n % 16)] (.escaped n) := by
  intro cs
  simp only [List.cons_append, List.nil_append]
  rw [scanString, unitOf?_hexDigit h]
  cases scanString cs <;> rfl

theorem scansAs_self {c : Char} (hq : c ≠ '"') (hb : c ≠ '\\') (h : ¬ c.toNat < 0x20) :
    ScansAs [c] (.char c) := by
  intro cs
  rw [List.singleton_append, scanString]
  · rw [if_neg (by simp [h, hb])]
    cases scanString cs <;> rfl
  · exact fun hc => absurd hc hq
  · exact fun _ _ _ _ _ hc => absurd hc hb
  · exact fun _ _ hc => absurd hc hb

/-- A character is written as one piece that stands for it. -/
theorem exists_scansAs (c : Char) : ∃ p : Piece, p.Denotes c ∧ ScansAs (escapeChar c) p := by
  have hsimple : ∀ e, e ≠ 'u' → simpleEscape? e = some c → escapeChar c = ['\\', e] →
      ∃ p : Piece, p.Denotes c ∧ ScansAs (escapeChar c) p :=
    fun e hu he htext => ⟨.char c, .inl rfl, htext ▸ scansAs_simple hu he⟩
  by_cases hq : c = '"'
  · subst hq; exact hsimple '"' (by decide) rfl rfl
  by_cases hb : c = '\\'
  · subst hb; exact hsimple '\\' (by decide) rfl rfl
  by_cases hn : c = '\n'
  · subst hn; exact hsimple 'n' (by decide) rfl rfl
  by_cases hr : c = '\r'
  · subst hr; exact hsimple 'r' (by decide) rfl rfl
  by_cases ht : c = '\t'
  · subst ht; exact hsimple 't' (by decide) rfl rfl
  by_cases h8 : c = '\x08'
  · subst h8; exact hsimple 'b' (by decide) rfl rfl
  by_cases hf : c = '\x0c'
  · subst hf; exact hsimple 'f' (by decide) rfl rfl
  rw [escapeChar, if_neg hq, if_neg hb, if_neg hn, if_neg hr, if_neg ht, if_neg h8, if_neg hf]
  split
  next hsmall => exact ⟨.escaped c.toNat, .inr ⟨rfl, hsmall⟩, scansAs_control hsmall⟩
  next hlarge => exact ⟨.char c, .inl rfl, scansAs_self hq hb hlarge⟩

theorem assemble_of_denotes {p : Piece} {c : Char} (h : p.Denotes c) (pieces : List Piece) :
    assemble (p :: pieces) = (assemble pieces).map (c :: ·) := by
  rcases h with rfl | ⟨rfl, hsmall⟩
  · rfl
  · have hhigh : isHighSurrogate c.toNat = false := by
      simp only [isHighSurrogate, Bool.and_eq_false_iff, decide_eq_false_iff_not]
      omega
    have hlow : isLowSurrogate c.toNat = false := by
      simp only [isLowSurrogate, Bool.and_eq_false_iff, decide_eq_false_iff_not]
      omega
    match pieces with
    | [] => simp [assemble, hhigh, hlow]
    | .char d :: pieces => simp [assemble, hhigh, hlow]
    | .escaped u :: pieces => simp [assemble, hhigh, hlow]

/-- The text of a string is read back from the escapes in which it is written. -/
theorem exists_scanString (cs rest : List Char) :
    ∃ pieces, scanString (cs.flatMap escapeChar ++ '"' :: rest) = some (pieces, rest) ∧
      assemble pieces = some cs := by
  induction cs with
  | nil => exact ⟨[], rfl, rfl⟩
  | cons c cs ih =>
    obtain ⟨pieces, hscan, htext⟩ := ih
    obtain ⟨p, hp, hscans⟩ := exists_scansAs c
    refine ⟨p :: pieces, ?_, ?_⟩
    · rw [List.flatMap_cons, List.append_assoc, hscans, hscan]
      rfl
    · rw [assemble_of_denotes hp, htext]
      rfl

theorem readString_writeString (text : String) (rest : List Char) :
    readString (text.toList.flatMap escapeChar ++ '"' :: rest) = some (some text, rest) := by
  obtain ⟨pieces, hscan, htext⟩ := exists_scanString text.toList rest
  rw [readString, hscan]
  change some ((assemble pieces).map String.ofList, rest) = _
  rw [htext, Option.map_some, String.ofList_toList]

/-! ### Numerals -/

/-- The characters with which a numeral can go on. -/
def inNumeral (c : Char) : Bool := c.isDigit || c == '.' || c == 'e' || c == 'E'

/-- A decimal numeral is a zero alone or begins with another digit. -/
theorem writeDecimal_cases (n : Nat) :
    writeDecimal n = ['0'] ∨ ∃ d ds, writeDecimal n = d :: ds ∧ d ≠ '0' := by
  induction n using Nat.strongRecOn with
  | ind n ih =>
    rw [writeDecimal]
    split
    next h =>
      cases n with
      | zero => exact .inl rfl
      | succ n =>
        refine .inr ⟨_, [], rfl, fun hzero => ?_⟩
        have hvalue := congrArg digitValue hzero
        rw [digitValue_digitChar h] at hvalue
        exact Nat.succ_ne_zero n hvalue
    next h =>
      right
      rcases ih (n / 10) (by omega) with hzero | ⟨d, ds, hds, hd⟩
      · have hvalue := digitsValue_writeDecimal (n / 10)
        rw [hzero] at hvalue
        have hquotient : n / 10 = 0 := hvalue.symm
        omega
      · exact ⟨d, ds ++ [digitChar (n % 10)], by rw [hds, List.cons_append], hd⟩

theorem exists_digit (n : Nat) : ∃ d ds, writeDecimal n = d :: ds ∧ d.isDigit = true := by
  cases hds : writeDecimal n with
  | nil => exact absurd hds (writeDecimal_ne_nil n)
  | cons d ds =>
    have hall := writeDecimal_all_isDigit n
    rw [hds] at hall
    exact ⟨d, ds, rfl, List.all_eq_true.1 hall d List.mem_cons_self⟩

section Numerals

variable {ds rest : List Char}

theorem writeDecimal_append_ne (n : Nat) {c : Char} (hc : c.isDigit = false) (cs : List Char) :
    writeDecimal n ++ rest ≠ c :: cs := by
  intro heq
  obtain ⟨d, ds, hds, hd⟩ := exists_digit n
  rw [hds, List.cons_append] at heq
  rw [← (List.cons.inj heq).1, hd] at hc
  cases hc

theorem startsOutside_isDigit (h : StartsOutside inNumeral rest) :
    StartsOutside Char.isDigit rest := by
  intro c hc
  have hout := h c hc
  simp only [inNumeral, Bool.or_eq_false_iff] at hout
  exact hout.1.1.1

theorem scanDigits_append (hne : ds ≠ []) (hds : ds.all Char.isDigit = true)
    (hrest : StartsOutside Char.isDigit rest) : scanDigits (ds ++ rest) = some (ds, rest) := by
  have hdigits : ∀ c ∈ ds, c.isDigit = true := List.all_eq_true.1 hds
  rw [scanDigits, List.span_eq_takeWhile_dropWhile, takeWhile_block hdigits hrest,
    dropWhile_block hdigits hrest]
  cases ds with
  | nil => exact absurd rfl hne
  | cons d ds => rfl

theorem scanWhole_writeDecimal (n : Nat) (hrest : StartsOutside Char.isDigit rest) :
    scanWhole (writeDecimal n ++ rest) = some (writeDecimal n, rest) := by
  rcases writeDecimal_cases n with hzero | ⟨d, ds, hds, hd⟩
  · rw [hzero]
    rfl
  · have hscan : scanWhole (writeDecimal n ++ rest) = scanDigits (writeDecimal n ++ rest) := by
      rw [hds, List.cons_append, scanWhole]
      exact fun _ h => hd (List.cons.inj h).1
    rw [hscan]
    exact scanDigits_append (writeDecimal_ne_nil n) (writeDecimal_all_isDigit n) hrest

theorem scanFraction_of_outside (h : StartsOutside inNumeral rest) :
    scanFraction rest = some ([], rest) := by
  cases rest with
  | nil => rfl
  | cons c cs =>
    have hc : c ≠ '.' := by
      rintro rfl
      exact absurd (startsOutside_cons.1 h) (by decide)
    rw [scanFraction]
    exact fun _ hdot => hc (List.cons.inj hdot).1

theorem scanExponent_of_outside (h : StartsOutside inNumeral rest) :
    scanExponent rest = some ([], rest) := by
  cases rest with
  | nil => rfl
  | cons c cs =>
    have hout := startsOutside_cons.1 h
    have hc : (c == 'e' || c == 'E') = false := by
      simp only [inNumeral, Bool.or_eq_false_iff] at hout ⊢
      exact ⟨hout.1.2, hout.2⟩
    exact if_neg (Bool.not_eq_true _ ▸ hc)

theorem scanNumber_writeDecimal (n : Nat) (h : StartsOutside inNumeral rest) :
    scanNumber (writeDecimal n ++ rest) = some (writeDecimal n, rest) := by
  rw [scanNumber]
  · simp only [scanWhole_writeDecimal n (startsOutside_isDigit h), Option.bind_eq_bind,
      Option.bind_some, scanFraction_of_outside h, scanExponent_of_outside h, List.nil_append,
      List.append_nil, Option.pure_def]
  · exact writeDecimal_append_ne n (by decide)

end Numerals

/-! ### White space -/

def IsGap (gap : List Char) : Prop := ∀ c ∈ gap, isSpace c = true

theorem skipSpace_gap {gap : List Char} (h : IsGap gap) (cs : List Char) :
    skipSpace (gap ++ cs) = skipSpace cs := List.dropWhile_append_of_pos h

section Skip

variable {fuel : Nat} {cs ds : List Char} (h : skipSpace cs = skipSpace ds)

include h

theorem readValue_congr : readValue fuel cs = readValue fuel ds := by
  cases fuel with
  | zero => rfl
  | succ fuel => rw [readValue, readValue, h]

theorem readItems_congr : readItems fuel cs = readItems fuel ds := by
  cases fuel with
  | zero => rfl
  | succ fuel => rw [readItems, readItems, readValue_congr h]

theorem readFields_congr : readFields fuel cs = readFields fuel ds := by
  cases fuel with
  | zero => rfl
  | succ fuel => rw [readFields, readFields, h]

end Skip

theorem inNumeral_of_isSpace {c : Char} (h : isSpace c = true) : inNumeral c = false := by
  simp only [isSpace, Bool.or_eq_true, beq_iff_eq] at h
  rcases h with ((rfl | rfl) | rfl) | rfl <;> rfl

theorem isSpace_of_isDigit {c : Char} (h : c.isDigit = true) : isSpace c = false := by
  rw [Bool.eq_false_iff]
  intro hspace
  have hout := inNumeral_of_isSpace hspace
  rw [inNumeral, h] at hout
  cases hout

theorem startsOutside_gap {gap cs : List Char} (h : IsGap gap)
    (hcs : StartsOutside inNumeral cs) : StartsOutside inNumeral (gap ++ cs) := by
  cases gap with
  | nil => exact hcs
  | cons c gap => exact startsOutside_cons.2 (inNumeral_of_isSpace (h c List.mem_cons_self))

/-- Behind a gap the text is met at its first character that is no white space. -/
theorem skipSpace_gap_cons {gap cs ds : List Char} {c : Char} (hgap : IsGap gap)
    (hc : isSpace c = false) (hcs : cs = c :: ds) : skipSpace (gap ++ cs) = c :: ds := by
  rw [skipSpace_gap hgap, hcs]
  exact dropWhile_of_startsOutside (startsOutside_cons.2 hc)

/-! ### Values -/

/-- A layout that puts white space only between the parts of a value. -/
structure Layout.IsBlank (layout : Layout) : Prop where
  line : ∀ depth, IsGap (layout.line depth)
  colon : ∃ gap, layout.colon = ':' :: gap ∧ IsGap gap

/-- A value whose numerals are those of whole numbers and whose strings are texts. -/
inductive IsPlain : Json → Prop where
  | null : IsPlain null
  | bool (value : Bool) : IsPlain (bool value)
  | nat (n : Nat) : IsPlain (nat n)
  | string (text : String) : IsPlain (string text)
  | list {items : List Json} (h : ∀ item ∈ items, IsPlain item) : IsPlain (list items)
  | object {fields : List (String × Json)} (h : ∀ field ∈ fields, IsPlain field.2) :
    IsPlain (object fields)

section Writing

variable (layout : Layout) (depth : Nat)

theorem writeAt_nat (n : Nat) : writeAt layout depth (nat n) = writeDecimal n := by
  have hnumeral : writeAt layout depth (nat n) = (decimal n).toList := rfl
  rw [hnumeral, decimal, String.toList_ofList]

theorem writeAt_list (item : Json) (items : List Json) :
    writeAt layout depth (list (item :: items)) =
      '[' :: (layout.line (depth + 1) ++ writeAt layout (depth + 1) item ++
        writeItems layout (depth + 1) items ++ layout.line depth ++ [']']) := rfl

theorem writeAt_object (key : String) (value : Json) (fields : List (String × Json)) :
    writeAt layout depth (object ((key, value) :: fields)) =
      '\x7b' :: (layout.line (depth + 1) ++ writeString key ++ layout.colon ++
        writeAt layout (depth + 1) value ++ writeFields layout (depth + 1) fields ++
        layout.line depth ++ ['\x7d']) := rfl

theorem writeItems_cons (item : Json) (items : List Json) :
    writeItems layout depth (item :: items) =
      ',' :: (layout.line depth ++ writeAt layout depth item ++
        writeItems layout depth items) := rfl

theorem writeFields_cons (key : String) (value : Json) (fields : List (String × Json)) :
    writeFields layout depth ((key, value) :: fields) =
      ',' :: (layout.line depth ++ writeString key ++ layout.colon ++ writeAt layout depth value ++
        writeFields layout depth fields) := rfl

end Writing

theorem mapM_texts (fields : List (String × Json)) :
    (fields.map fun (key, value) => (some key, value)).mapM
      (fun (key, value) => key.map (·, value)) = some fields := by
  induction fields with
  | nil => rfl
  | cons field fields ih =>
    rw [List.map_cons, List.mapM_cons, ih]
    rfl

theorem ofFields_texts (fields : List (String × Json)) :
    ofFields (fields.map fun (key, value) => (some key, value)) = .object fields := by
  rw [ofFields, mapM_texts]

/-- What a value begins with is no white space, and neither closes a list nor an object. -/
theorem exists_writeAt_cons (layout : Layout) (depth : Nat) {v : Json} (hv : v.IsPlain) :
    ∃ c cs, writeAt layout depth v = c :: cs ∧ isSpace c = false ∧ c ≠ ']' := by
  cases hv with
  | null => exact ⟨'n', _, rfl, by decide, by decide⟩
  | bool value =>
    cases value with
    | false => exact ⟨'f', _, rfl, by decide, by decide⟩
    | true => exact ⟨'t', _, rfl, by decide, by decide⟩
  | nat n =>
    obtain ⟨d, ds, hds, hd⟩ := exists_digit n
    refine ⟨d, ds, ?_, ?_, ?_⟩
    · rw [writeAt_nat, hds]
    · exact isSpace_of_isDigit hd
    · rintro rfl
      exact absurd hd (by decide)
  | string text => exact ⟨'"', _, rfl, by decide, by decide⟩
  | @list items h =>
    cases items with
    | nil => exact ⟨'[', _, rfl, by decide, by decide⟩
    | cons item items => exact ⟨'[', _, rfl, by decide, by decide⟩
  | @object fields h =>
    cases fields with
    | nil => exact ⟨'\x7b', _, rfl, by decide, by decide⟩
    | cons field fields => exact ⟨'\x7b', _, rfl, by decide, by decide⟩

theorem readValue_numeral (fuel n : Nat) {rest : List Char} (h : StartsOutside inNumeral rest) :
    readValue (fuel + 1) (writeDecimal n ++ rest) = some (nat n, rest) := by
  have hscan := scanNumber_writeDecimal n h
  obtain ⟨d, ds, hds, hd⟩ := exists_digit n
  have hskip : skipSpace (writeDecimal n ++ rest) = writeDecimal n ++ rest := by
    rw [hds, List.cons_append]
    exact List.dropWhile_cons_of_neg (by simp [isSpace_of_isDigit hd])
  rw [readValue, hskip]
  split
  case h_7 =>
    rw [hscan]
    rfl
  all_goals
    rename_i heq
    exact absurd heq (writeDecimal_append_ne n (by decide) _)

theorem readValue_string (fuel : Nat) (text : String) (rest : List Char) :
    readValue (fuel + 1) (writeString text ++ rest) = some (string text, rest) := by
  have hquote : ∀ cs, skipSpace ('"' :: cs) = '"' :: cs := fun _ => rfl
  rw [writeString, List.cons_append, List.append_assoc, List.singleton_append, readValue, hquote]
  simp only [readString_writeString]
  rfl

/-- A list that does not close at once is read item by item. -/
theorem readValue_list (fuel : Nat) {cs : List Char} {c : Char} {ds : List Char}
    (hcs : skipSpace cs = c :: ds) (hc : c ≠ ']') :
    readValue (fuel + 1) ('[' :: cs) =
      (readItems fuel cs).map fun (items, rest) => (list items, rest) := by
  have hskip : skipSpace (skipSpace cs) = skipSpace cs := List.dropWhile_idempotent _ _
  have hopen : skipSpace ('[' :: cs) = '[' :: cs := rfl
  rw [← readItems_congr hskip, readValue, hopen]
  simp only [hcs]
  split
  next rest heq => exact absurd (List.cons.inj heq).1 hc
  next => rfl

/-- An object that does not close at once is read field by field. -/
theorem readValue_object (fuel : Nat) {cs : List Char} {c : Char} {ds : List Char}
    (hcs : skipSpace cs = c :: ds) (hc : c ≠ '\x7d') :
    readValue (fuel + 1) ('\x7b' :: cs) =
      (readFields fuel cs).map fun (fields, rest) => (ofFields fields, rest) := by
  have hskip : skipSpace (skipSpace cs) = skipSpace cs := List.dropWhile_idempotent _ _
  have hopen : skipSpace ('\x7b' :: cs) = '\x7b' :: cs := rfl
  rw [← readFields_congr hskip, readValue, hopen]
  simp only [hcs]
  split
  next rest heq => exact absurd (List.cons.inj heq).1 hc
  next => rfl

section Steps

variable {fuel : Nat} {cs afterKey afterColon afterValue rest : List Char} {key : String}
  {value : Json}

theorem readItems_last (hvalue : readValue fuel cs = some (value, afterValue))
    (hclose : skipSpace afterValue = ']' :: rest) :
    readItems (fuel + 1) cs = some ([value], rest) := by
  rw [readItems, hvalue]
  simp only [Option.bind_eq_bind, Option.bind_some, hclose]
  rfl

theorem readItems_more (hvalue : readValue fuel cs = some (value, afterValue))
    (hcomma : skipSpace afterValue = ',' :: rest) :
    readItems (fuel + 1) cs =
      (readItems fuel rest).map fun (items, rest) => (value :: items, rest) := by
  rw [readItems, hvalue]
  simp only [Option.bind_eq_bind, Option.bind_some, hcomma]
  cases readItems fuel rest <;> rfl

theorem readFields_last (hkey : readString cs = some (some key, afterKey))
    (hcolon : skipSpace afterKey = ':' :: afterColon)
    (hvalue : readValue fuel afterColon = some (value, afterValue))
    (hclose : skipSpace afterValue = '\x7d' :: rest) :
    readFields (fuel + 1) ('"' :: cs) = some ([(some key, value)], rest) := by
  have hquote : skipSpace ('"' :: cs) = '"' :: cs := rfl
  rw [readFields, hquote]
  simp only [hkey, hcolon, hvalue, hclose, Option.bind_eq_bind, Option.bind_some]
  rfl

theorem readFields_more (hkey : readString cs = some (some key, afterKey))
    (hcolon : skipSpace afterKey = ':' :: afterColon)
    (hvalue : readValue fuel afterColon = some (value, afterValue))
    (hcomma : skipSpace afterValue = ',' :: rest) :
    readFields (fuel + 1) ('"' :: cs) =
      (readFields fuel rest).map fun (fields, rest) => ((some key, value) :: fields, rest) := by
  have hquote : skipSpace ('"' :: cs) = '"' :: cs := rfl
  rw [readFields, hquote]
  simp only [hkey, hcolon, hvalue, hcomma, Option.bind_eq_bind, Option.bind_some]
  cases readFields fuel rest <;> rfl

end Steps

/-- With this fuel every plain value is read back from what was written of it. -/
structure ReadsBack (layout : Layout) (fuel : Nat) : Prop where
  value : ∀ {v : Json} {depth : Nat} {rest : List Char}, v.IsPlain →
    StartsOutside inNumeral rest → 2 * (writeAt layout depth v).length ≤ fuel →
    readValue fuel (writeAt layout depth v ++ rest) = some (v, rest)
  items : ∀ {item : Json} {items : List Json} {depth : Nat} {gap rest : List Char},
    (∀ v ∈ item :: items, IsPlain v) → IsGap gap →
    2 * (writeAt layout depth item ++ writeItems layout depth items).length < fuel →
    readItems fuel (writeAt layout depth item ++
      (writeItems layout depth items ++ (gap ++ ']' :: rest))) = some (item :: items, rest)
  fields : ∀ {key : String} {value : Json} {fields : List (String × Json)} {depth : Nat}
    {gap rest : List Char}, (∀ field ∈ (key, value) :: fields, IsPlain field.2) → IsGap gap →
    2 * (writeAt layout depth value ++ writeFields layout depth fields).length < fuel →
    readFields fuel (writeString key ++ (layout.colon ++ (writeAt layout depth value ++
      (writeFields layout depth fields ++ (gap ++ '\x7d' :: rest))))) =
        some (((key, value) :: fields).map fun (key, value) => (some key, value), rest)

section Induction

variable {layout : Layout} {fuel : Nat}

theorem ReadsBack.items_succ (hlayout : layout.IsBlank) (h : ReadsBack layout fuel) {item : Json}
    {items : List Json} {depth : Nat} {gap rest : List Char}
    (hplain : ∀ v ∈ item :: items, IsPlain v) (hgap : IsGap gap)
    (hfuel : 2 * (writeAt layout depth item ++ writeItems layout depth items).length < fuel + 1) :
    readItems (fuel + 1) (writeAt layout depth item ++
      (writeItems layout depth items ++ (gap ++ ']' :: rest))) = some (item :: items, rest) := by
  obtain ⟨hitem, hitems⟩ := List.forall_mem_cons.1 hplain
  rw [List.length_append] at hfuel
  have hread : ∀ behind, StartsOutside inNumeral behind →
      readValue fuel (writeAt layout depth item ++ behind) = some (item, behind) :=
    fun behind hbehind => h.value hitem hbehind (by omega)
  cases items with
  | nil =>
    have hend : StartsOutside inNumeral (gap ++ ']' :: rest) :=
      startsOutside_gap hgap (startsOutside_cons.2 (by decide))
    exact readItems_last (hread _ hend) (skipSpace_gap hgap _)
  | cons next items =>
    rw [writeItems_cons] at hfuel ⊢
    simp only [List.length_cons, List.length_append] at hfuel
    simp only [List.cons_append, List.append_assoc]
    rw [readItems_more (hread _ (startsOutside_cons.2 (by decide))) rfl,
      readItems_congr (skipSpace_gap (hlayout.line depth) _),
      h.items hitems hgap (by rw [List.length_append]; omega)]
    rfl

theorem ReadsBack.fields_succ (hlayout : layout.IsBlank) (h : ReadsBack layout fuel) {key : String}
    {value : Json} {fields : List (String × Json)} {depth : Nat} {gap rest : List Char}
    (hplain : ∀ field ∈ (key, value) :: fields, IsPlain field.2) (hgap : IsGap gap)
    (hfuel :
      2 * (writeAt layout depth value ++ writeFields layout depth fields).length < fuel + 1) :
    readFields (fuel + 1) (writeString key ++ (layout.colon ++ (writeAt layout depth value ++
      (writeFields layout depth fields ++ (gap ++ '\x7d' :: rest))))) =
        some (((key, value) :: fields).map fun (key, value) => (some key, value), rest) := by
  obtain ⟨hvalue, hfields⟩ := List.forall_mem_cons.1 hplain
  obtain ⟨space, hcolon, hspace⟩ := hlayout.colon
  rw [List.length_append] at hfuel
  have hread : ∀ behind, StartsOutside inNumeral behind →
      readValue fuel (space ++ (writeAt layout depth value ++ behind)) = some (value, behind) := by
    intro behind hbehind
    rw [readValue_congr (skipSpace_gap hspace _)]
    exact h.value hvalue hbehind (by omega)
  simp only [hcolon, writeString, List.cons_append, List.append_assoc, List.nil_append]
  cases fields with
  | nil =>
    have hend : StartsOutside inNumeral (gap ++ '\x7d' :: rest) :=
      startsOutside_gap hgap (startsOutside_cons.2 (by decide))
    exact readFields_last (readString_writeString key _) rfl (hread _ hend) (skipSpace_gap hgap _)
  | cons field fields =>
    obtain ⟨next, nextValue⟩ := field
    rw [writeFields_cons] at hfuel ⊢
    simp only [List.length_cons, List.length_append] at hfuel
    simp only [List.cons_append, List.append_assoc]
    rw [readFields_more (readString_writeString key _) rfl
        (hread _ (startsOutside_cons.2 (by decide))) rfl,
      readFields_congr (skipSpace_gap (hlayout.line depth) _),
      h.fields hfields hgap (by rw [List.length_append]; omega)]
    rfl

theorem ReadsBack.value_succ (hlayout : layout.IsBlank) (h : ReadsBack layout fuel) {v : Json}
    {depth : Nat} {rest : List Char} (hv : v.IsPlain) (hrest : StartsOutside inNumeral rest)
    (hfuel : 2 * (writeAt layout depth v).length ≤ fuel + 1) :
    readValue (fuel + 1) (writeAt layout depth v ++ rest) = some (v, rest) := by
  cases hv with
  | null => rfl
  | bool value => cases value <;> rfl
  | nat n =>
    rw [writeAt_nat]
    exact readValue_numeral fuel n hrest
  | string text => exact readValue_string fuel text rest
  | @list items hitems =>
    cases items with
    | nil => rfl
    | cons item items =>
      obtain ⟨c, cs, hhead, hspace, hc⟩ :=
        exists_writeAt_cons layout (depth + 1) (hitems item List.mem_cons_self)
      rw [writeAt_list] at hfuel ⊢
      simp only [List.length_cons, List.length_append] at hfuel
      simp only [List.cons_append, List.append_assoc, List.nil_append]
      rw [readValue_list fuel (skipSpace_gap_cons (hlayout.line (depth + 1)) hspace
          (by rw [hhead, List.cons_append])) hc,
        readItems_congr (skipSpace_gap (hlayout.line (depth + 1)) _),
        h.items hitems (hlayout.line depth) (by rw [List.length_append]; omega)]
      rfl
  | @object fields hfields =>
    cases fields with
    | nil => rfl
    | cons field fields =>
      obtain ⟨key, value⟩ := field
      rw [writeAt_object] at hfuel ⊢
      simp only [List.length_cons, List.length_append] at hfuel
      simp only [List.cons_append, List.append_assoc, List.nil_append]
      have hquote : isSpace '"' = false := by decide
      rw [readValue_object fuel (skipSpace_gap_cons (hlayout.line (depth + 1)) hquote
          (by rw [writeString, List.cons_append])) (by decide),
        readFields_congr (skipSpace_gap (hlayout.line (depth + 1)) _),
        h.fields hfields (hlayout.line depth) (by rw [List.length_append]; omega)]
      exact congrArg (fun value => some (value, rest)) (ofFields_texts ((key, value) :: fields))

theorem readsBack (hlayout : layout.IsBlank) (fuel : Nat) : ReadsBack layout fuel := by
  induction fuel with
  | zero =>
    -- every value takes at least one character, so that nothing is asked without fuel
    refine ⟨fun {v depth} _ hv _ hfuel => ?_, fun _ _ hfuel => ?_, fun _ _ hfuel => ?_⟩
    · obtain ⟨c, cs, hhead, -⟩ := exists_writeAt_cons layout depth hv
      simp [hhead] at hfuel
    · exact absurd hfuel (Nat.not_lt_zero _)
    · exact absurd hfuel (Nat.not_lt_zero _)
  | succ fuel ih => exact ⟨ih.value_succ hlayout, ih.items_succ hlayout, ih.fields_succ hlayout⟩

end Induction

/-- A plain value is read back from its text, in every layout that adds only white space. -/
theorem read_write {layout : Layout} (hlayout : layout.IsBlank) {v : Json} (hv : v.IsPlain) :
    read (v.write layout) = some v := by
  have hvalue : readValue (2 * (writeAt layout 0 v).length + 2) (writeAt layout 0 v ++ []) =
      some (v, []) :=
    (readsBack hlayout _).value hv (startsOutside_nil inNumeral) (by omega)
  rw [List.append_nil] at hvalue
  rw [read, write, String.toList_ofList, hvalue]
  rfl

theorem Layout.isBlank_pretty : Layout.pretty.IsBlank where
  line depth := by
    intro c hc
    rcases List.mem_cons.1 hc with rfl | hc
    · rfl
    · rw [(List.mem_replicate.1 hc).2]
      rfl
  colon := ⟨[' '], rfl, by simp [IsGap, isSpace]⟩

end Json

end SchemaDrift
