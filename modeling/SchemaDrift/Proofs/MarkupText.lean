/-
  SchemaDrift/Proofs/MarkupText.lean
  ==================================
  **What is written as markup is cut into its tags again.**

  Values stand between quotation marks and hold none, since they are escaped; so a tag
  ends where it was ended (`Passes`), and its attributes are read back in their order
  (`attributes?_attributesText`).  `Yields` says of a text that it gives certain tokens
  whatever follows it.  It holds of each kind of tag and is kept by putting texts one
  behind the other (`Yields.append`).  Elements that are opened and closed in turn pass
  the check of the nesting (`Balanced`).
-/
import Mathlib.Tactic.SplitIfs
import SchemaDrift.Markup.Attribute
import SchemaDrift.Proofs.Scanning

namespace SchemaDrift

namespace Markup

/-! ### Words -/

/-- The characters of the names and keys that are written. -/
def inWord (c : Char) : Bool := c.isAlpha || c == '-'

/-- A name of elements or attributes as it may be written. -/
def IsWord (name : String) : Prop := name.toList ≠ [] ∧ ∀ c ∈ name.toList, inWord c = true

instance (name : String) : Decidable (IsWord name) :=
  decidable_of_iff ((!name.toList.isEmpty && name.toList.all inWord) = true) (by simp [IsWord])

theorem ne_of_inWord {c d : Char} (hc : inWord c = true) (hd : inWord d = false) : c ≠ d := by
  rintro rfl
  exact absurd (hc.symm.trans hd) (by decide)

theorem isSpace_of_inWord {c : Char} (h : inWord c = true) : isSpace c = false := by
  have hspace : ∀ d, inWord d = false → (c == d) = false := fun d hd =>
    beq_eq_false_iff_ne.2 (ne_of_inWord h hd)
  simp [isSpace, hspace ' ' (by decide), hspace '\t' (by decide), hspace '\n' (by decide),
    hspace '\r' (by decide)]

theorem quote_notMem_escape (cs : List Char) : '"' ∉ escape cs := by
  intro h
  obtain ⟨c, -, hc⟩ := List.mem_flatMap.1 h
  unfold escapeChar at hc
  split_ifs at hc with _ _ _ _ hquote
  case neg => exact hquote (List.mem_singleton.1 hc).symm
  all_goals exact absurd hc (by decide)

/-! ### Where a tag ends -/

/-- A text in a tag behind which the tag goes on, outside of quotation marks. -/
def Passes (text : List Char) : Prop :=
  ∀ cs, scanTag none (text ++ cs) = (scanTag none cs).map fun (tag, rest) => (text ++ tag, rest)

theorem passes_nil : Passes [] := by
  intro cs
  rw [List.nil_append]
  cases scanTag none cs <;> rfl

theorem Passes.append {a b : List Char} (ha : Passes a) (hb : Passes b) : Passes (a ++ b) := by
  intro cs
  rw [List.append_assoc, ha, hb]
  cases scanTag none cs with
  | none => rfl
  | some scanned => simp

theorem passes_char {c : Char} (hend : c ≠ '>') (hquote : c ≠ '"') (hsingle : c ≠ '\'') :
    Passes [c] := by
  intro cs
  simp [scanTag, hend, hquote, hsingle]

theorem passes_word {word : List Char} (h : ∀ c ∈ word, inWord c = true) : Passes word := by
  induction word with
  | nil => exact passes_nil
  | cons c word ih =>
    obtain ⟨hc, hword⟩ := List.forall_mem_cons.1 h
    have hchar : Passes [c] := passes_char (ne_of_inWord hc (by decide))
      (ne_of_inWord hc (by decide)) (ne_of_inWord hc (by decide))
    exact hchar.append (ih hword)

theorem passes_quoted {value : List Char} (h : '"' ∉ value) :
    Passes ('"' :: (value ++ ['"'])) := by
  intro cs
  have hinside : scanTag (some '"') (value ++ '"' :: cs) =
      (scanTag none cs).map fun (tag, rest) => (value ++ '"' :: tag, rest) := by
    induction value with
    | nil => rfl
    | cons c value ih =>
      rw [List.mem_cons, not_or] at h
      rw [List.cons_append, scanTag]
      simp only [if_neg (Ne.symm h.1), ih h.2]
      cases scanTag none cs <;> rfl
  rw [List.cons_append, List.append_assoc, List.singleton_append, scanTag]
  change (scanTag (some '"') (value ++ '"' :: cs)).map _ = _
  rw [hinside]
  cases scanTag none cs with
  | none => rfl
  | some scanned => simp

theorem Passes.scanTag {text : List Char} (h : Passes text) (rest : List Char) :
    scanTag none (text ++ '>' :: rest) = some (text, rest) := by
  rw [h]
  change some (text ++ [], rest) = _
  rw [List.append_nil]

/-! ### Attributes -/

/-- Attributes as they may be written: keys that are words, each once. -/
structure WellKeyed (attributes : Attributes) : Prop where
  words : ∀ pair ∈ attributes, IsWord pair.1
  distinct : (attributes.map Prod.fst).Nodup

/-- Whether attributes may be written is seen from their keys. -/
theorem wellKeyed_of_keys {attributes : Attributes} {keys : List String}
    (hkeys : attributes.map Prod.fst = keys) (h : (∀ key ∈ keys, IsWord key) ∧ keys.Nodup) :
    WellKeyed attributes := by
  subst hkeys
  exact ⟨List.forall_mem_map.1 h.1, h.2⟩

theorem toList_attributesText_cons (key value : String) (attributes : Attributes) :
    (attributesText ((key, value) :: attributes)).toList =
      ' ' :: (key.toList ++ '=' :: '"' :: (escape value.toList ++
        '"' :: (attributesText attributes).toList)) := by
  simp [attributesText, attributeText]

theorem passes_attributesText {attributes : Attributes}
    (h : ∀ pair ∈ attributes, IsWord pair.1) :
    Passes (attributesText attributes).toList := by
  induction attributes with
  | nil => exact passes_nil
  | cons pair attributes ih =>
    obtain ⟨key, value⟩ := pair
    obtain ⟨hkey, hrest⟩ := List.forall_mem_cons.1 h
    have hspace : Passes [' '] := passes_char (by decide) (by decide) (by decide)
    have hequals : Passes ['='] := passes_char (by decide) (by decide) (by decide)
    have hvalue := passes_quoted (quote_notMem_escape value.toList)
    have hall := (((hspace.append (passes_word hkey.2)).append hequals).append hvalue).append
      (ih hrest)
    rw [toList_attributesText_cons]
    simpa using hall

/-- An attribute is scanned from the first character of its key to the end of its value. -/
theorem scanAttribute_written {first : Char} {key value : List Char} (rest : List Char)
    (hkey : ∀ c ∈ key, inWord c = true) (hvalue : '"' ∉ value) :
    scanAttribute first (key ++ '=' :: '"' :: (value ++ '"' :: rest)) =
      some ((first :: key, value), rest) := by
  have hinside : ∀ c ∈ key, (!(c == '=' || isSpace c)) = true := by
    intro c hc
    have hne := beq_eq_false_iff_ne.2 (ne_of_inWord (hkey c hc) (show inWord '=' = false by decide))
    rw [hne, isSpace_of_inWord (hkey c hc)]
    rfl
  have hends : StartsOutside (fun c => !(c == '=' || isSpace c))
      ('=' :: '"' :: (value ++ '"' :: rest)) := startsOutside_cons.2 rfl
  have hunquoted : ∀ c ∈ value, decide (c ≠ '"') = true := by
    intro c hc
    exact decide_eq_true fun heq => hvalue (heq ▸ hc)
  have hquote : StartsOutside (fun c => decide (c ≠ '"')) ('"' :: rest) :=
    startsOutside_cons.2 rfl
  have hequals : ∀ cs, skipSpace ('=' :: cs) = '=' :: cs := fun _ => rfl
  have hopen : ∀ cs, skipSpace ('"' :: cs) = '"' :: cs := fun _ => rfl
  rw [scanAttribute]
  simp only [takeWhile_block hinside hends, dropWhile_block hinside hends, hequals, hopen,
    beq_self_eq_true, Bool.true_or, if_true]
  rw [takeWhile_block hunquoted hquote, dropWhile_block hunquoted hquote]

theorem attributesWith_attributesText {attributes : Attributes}
    (hwords : ∀ pair ∈ attributes, IsWord pair.1) {found : Attributes}
    (hdistinct : ((found ++ attributes).map Prod.fst).Nodup) {fuel : Nat}
    (hfuel : attributes.length ≤ fuel) :
    attributesWith fuel found (attributesText attributes).toList = some (found ++ attributes) := by
  induction attributes generalizing found fuel with
  | nil =>
    rw [List.append_nil]
    cases fuel <;> rfl
  | cons pair attributes ih =>
    obtain ⟨key, value⟩ := pair
    obtain ⟨⟨hne, hkey⟩, hrest⟩ := List.forall_mem_cons.1 hwords
    obtain ⟨first, more, hchars⟩ := List.exists_cons_of_ne_nil hne
    rw [hchars] at hkey
    obtain ⟨hfirst, hmore⟩ := List.forall_mem_cons.1 hkey
    cases fuel with
    | zero => exact absurd hfuel (Nat.not_succ_le_zero _)
    | succ fuel =>
      have hnew : found.lookup key = none := by
        rw [List.map_append, List.map_cons] at hdistinct
        refine List.lookup_eq_none_iff.2 fun other hother => bne_iff_ne.2 fun hsame => ?_
        exact (List.nodup_append.1 hdistinct).2.2 other.1 (List.mem_map_of_mem hother) key
          List.mem_cons_self hsame.symm
      have hskip : skipSpace (attributesText ((key, value) :: attributes)).toList =
          first :: (more ++ '=' :: '"' :: (escape value.toList ++
            '"' :: (attributesText attributes).toList)) := by
        rw [toList_attributesText_cons, hchars]
        exact dropWhile_of_startsOutside (startsOutside_cons.2 (isSpace_of_inWord hfirst))
      have hkeyText : String.ofList (first :: more) = key := by
        rw [← hchars, String.ofList_toList]
      rw [attributesWith, hskip]
      simp only [scanAttribute_written _ hmore (quote_notMem_escape value.toList), hkeyText, hnew,
        unescape_escape, String.ofList_toList, Option.bind_eq_bind, Option.bind_some]
      have hread := @ih hrest (found ++ [(key, value)]) (by simpa using hdistinct) fuel
        (Nat.le_of_succ_le_succ hfuel)
      rw [List.append_assoc, List.singleton_append] at hread
      exact hread

theorem length_le_attributesText (attributes : Attributes) :
    attributes.length ≤ (attributesText attributes).toList.length := by
  induction attributes with
  | nil => exact Nat.zero_le _
  | cons pair attributes ih =>
    rw [toList_attributesText_cons]
    simp only [List.length_cons, List.length_append]
    omega

/-- The attributes of a tag are read back from its text. -/
theorem attributes?_attributesText {attributes : Attributes} (h : WellKeyed attributes) :
    attributes? (attributesText attributes).toList = some attributes :=
  @attributesWith_attributesText attributes h.words [] h.distinct _
    (Nat.le_succ_of_le (length_le_attributesText attributes))

/-! ### Tags -/

/-- What stands behind the name in a tag begins with white space, if with anything. -/
theorem startsOutside_attributesText (attributes : Attributes) :
    StartsOutside (fun c => !isSpace c) (attributesText attributes).toList := by
  cases attributes with
  | nil => exact startsOutside_nil _
  | cons pair attributes =>
    rw [toList_attributesText_cons]
    exact startsOutside_cons.2 rfl

theorem getLast?_attributesText {attributes : Attributes} {c : Char}
    (h : (attributesText attributes).toList.getLast? = some c) : c = '"' := by
  induction attributes with
  | nil => cases h
  | cons pair attributes ih =>
    rw [toList_attributesText_cons] at h
    cases hlast : (attributesText attributes).toList.getLast? with
    | none => simpa [List.getLast?_cons, List.getLast?_append, hlast, eq_comm] using h
    | some d =>
      have hd : d = c := by simpa [List.getLast?_cons, List.getLast?_append, hlast] using h
      exact hd ▸ ih (hlast.trans (congrArg some hd))

/-- What is written in a tag before its end does not close it. -/
theorem getLast?_written {name : String} (hname : IsWord name) (attributes : Attributes) :
    (name.toList ++ (attributesText attributes).toList).getLast? ≠ some '/' := by
  intro hlast
  rw [List.getLast?_append, Option.or_eq_some_iff] at hlast
  rcases hlast with hattributes | ⟨-, hword⟩
  · exact absurd (getLast?_attributesText hattributes) (by decide)
  · exact absurd (hname.2 _ (List.mem_of_getLast? hword)) (by decide)

theorem openingToken_written {name : String} (hname : IsWord name) (attributes : Attributes)
    (closed : Bool) :
    openingToken (name.toList ++ (attributesText attributes).toList ++
      if closed then ['/'] else []) =
        .opening name.toList (attributesText attributes).toList closed := by
  have hword : ∀ c ∈ name.toList, (!isSpace c) = true := fun c hc => by
    rw [isSpace_of_inWord (hname.2 c hc)]
    rfl
  have hrest := startsOutside_attributesText attributes
  cases closed with
  | false =>
    have hopen := beq_eq_false_iff_ne.2 (getLast?_written hname attributes)
    rw [openingToken]
    simp [-List.getLast?_append, hopen, takeWhile_block hword hrest, dropWhile_block hword hrest]
  | true => simp [openingToken, takeWhile_block hword hrest, dropWhile_block hword hrest]

theorem closingName_word {name : String} (hname : IsWord name) :
    closingName name.toList = name.toList := by
  have hlast : StartsOutside isSpace name.toList.reverse := by
    intro c hc
    exact isSpace_of_inWord (hname.2 c (List.mem_reverse.1 (List.mem_of_mem_head? hc)))
  rw [closingName, dropWhile_of_startsOutside hlast, List.reverse_reverse]
  exact if_neg (by simpa using hname.1)

/-! ### Tokens -/

/-- A text that gives certain tokens, whatever follows it.  The number of markups in it is the
    number of rounds that it takes. -/
def Yields (text : List Char) (given : List Token) : Prop :=
  ∃ rounds ≤ text.length, ∀ fuel rest,
    tokensWith (fuel + rounds) (text ++ rest) = given ++ tokensWith fuel rest

theorem Yields.append {a b : List Char} {first second : List Token} (ha : Yields a first)
    (hb : Yields b second) : Yields (a ++ b) (first ++ second) := by
  obtain ⟨roundsA, hlengthA, ha⟩ := ha
  obtain ⟨roundsB, hlengthB, hb⟩ := hb
  -- the rounds of the second text are left when the first one has been read
  refine ⟨roundsB + roundsA, ?_, fun fuel rest => ?_⟩
  · rw [List.length_append]
    omega
  · rw [← Nat.add_assoc, List.append_assoc, ha, hb, List.append_assoc]

/-- Text between tags gives nothing. -/
theorem yields_text {text : List Char} (h : '<' ∉ text) : Yields text [] := by
  refine ⟨0, Nat.zero_le _, fun fuel rest => ?_⟩
  have hskip : (text ++ rest).dropWhile (· ≠ '<') = rest.dropWhile (· ≠ '<') :=
    List.dropWhile_append_of_pos fun c hc => decide_eq_true fun heq => h (heq ▸ hc)
  cases fuel with
  | zero => rfl
  | succ fuel =>
    change tokensWith (fuel + 1) (text ++ rest) = tokensWith (fuel + 1) rest
    rw [tokensWith, hskip, tokensWith]

/-- What stands between angle brackets gives what it is scanned as. -/
theorem yields_markup {inside : List Char} {token : Option Token}
    (h : ∀ rest, scanMarkup (inside ++ rest) = some (token, rest)) :
    Yields ('<' :: inside) token.toList := by
  refine ⟨1, Nat.succ_le_succ (Nat.zero_le _), fun fuel rest => ?_⟩
  have hfound : ('<' :: (inside ++ rest)).dropWhile (· ≠ '<') = '<' :: (inside ++ rest) := rfl
  rw [List.cons_append, tokensWith, hfound]
  simp only [h rest]
  cases token <;> rfl

/-- The tokens of a text that begins with no byte order mark. -/
theorem Yields.tokens {text : String} {given : List Token} (h : Yields text.toList given)
    (hmark : text.toList.head? ≠ some '\ufeff') : tokens text = given := by
  obtain ⟨rounds, hlength, htokens⟩ := h
  have hnothing : ∀ fuel, tokensWith fuel [] = [] := by
    rintro (_ | _) <;> rfl
  have hall := htokens (text.toList.length - rounds) []
  rw [Nat.sub_add_cancel hlength, List.append_nil, hnothing, List.append_nil] at hall
  rw [Markup.tokens]
  split
  next rest heq => exact absurd (heq ▸ rfl) hmark
  next => exact hall

theorem yields_flatMap {α : Type} {text : α → List Char} {given : α → List Token} {xs : List α}
    (h : ∀ x ∈ xs, Yields (text x) (given x)) : Yields (xs.flatMap text) (xs.flatMap given) := by
  induction xs with
  | nil => exact yields_text List.not_mem_nil
  | cons x xs ih =>
    obtain ⟨hx, hxs⟩ := List.forall_mem_cons.1 h
    exact hx.append (ih hxs)

/-! ### Lines -/

/-- A line with the break before it. -/
def brokenLine (line : String) : List Char := '\n' :: line.toList

theorem toList_intercalate_lines (line : String) (lines : List String) :
    ("\n".intercalate (line :: lines)).toList = line.toList ++ lines.flatMap brokenLine := by
  induction lines generalizing line with
  | nil => simp
  | cons next lines ih =>
    rw [String.intercalate_cons_cons, String.toList_append, String.toList_append, ih,
      List.append_assoc]
    rfl

/-- An indented line gives what its text gives. -/
theorem Yields.brokenLine {text indent : String} {given : List Token}
    (h : Yields text.toList given) (hindent : '<' ∉ indent.toList) :
    Yields (brokenLine (indent ++ text)) given := by
  have hgap : '<' ∉ '\n' :: indent.toList := by
    rw [List.mem_cons, not_or]
    exact ⟨by decide, hindent⟩
  rw [Markup.brokenLine, String.toList_append]
  exact (yields_text hgap).append h

/-- Lines of one tag each, all indented alike. -/
theorem yields_lines {α : Type} {text : α → String} {token : α → Token} {xs : List α}
    {indent : String} (hindent : '<' ∉ indent.toList)
    (h : ∀ x ∈ xs, Yields (text x).toList [token x]) :
    Yields (xs.flatMap fun x => Markup.brokenLine (indent ++ text x)) (xs.map token) := by
  rw [List.map_eq_flatMap]
  exact yields_flatMap fun x hx => (h x hx).brokenLine hindent

/-! ### Tags as they are written -/

/-- A tag that opens an element, as it is met in a text. -/
def tagToken (name : String) (attributes : Attributes) (closed : Bool) : Token :=
  .opening name.toList (attributesText attributes).toList closed

theorem scanMarkup_opening {name : String} (hname : IsWord name) (behind : List Char) :
    scanMarkup (name.toList ++ behind) =
      (scanTag none (name.toList ++ behind)).map fun (tag, rest) =>
        (some (openingToken tag), rest) := by
  obtain ⟨hne, hword⟩ := hname
  obtain ⟨first, more, hchars⟩ := List.exists_cons_of_ne_nil hne
  rw [hchars] at hword ⊢
  have hother : ∀ c cs, inWord c = false → first :: (more ++ behind) ≠ c :: cs := by
    rintro c cs hc heq
    exact ne_of_inWord (hword first List.mem_cons_self) hc (List.cons.inj heq).1
  rw [List.cons_append, scanMarkup]
  · exact List.cons_ne_nil _ _
  · exact fun _ => hother _ _ (by decide)
  · exact fun _ => hother _ _ (by decide)
  · exact fun _ => hother _ _ (by decide)
  · exact fun _ => hother _ _ (by decide)

section Tags

variable {name : String} (hname : IsWord name) {attributes : Attributes}

include hname

/-- An opening tag is scanned to its end, whether or not it closes its element. -/
theorem scanMarkup_tag (hkeys : ∀ pair ∈ attributes, IsWord pair.1) (closed : Bool)
    (rest : List Char) :
    scanMarkup (name.toList ++ (attributesText attributes).toList ++
      (if closed then ['/'] else []) ++ '>' :: rest) =
        some (some (tagToken name attributes closed), rest) := by
  have hslash : Passes (if closed then ['/'] else []) := by
    cases closed with
    | false => exact passes_nil
    | true => exact passes_char (by decide) (by decide) (by decide)
  have hinside := ((passes_word hname.2).append (passes_attributesText hkeys)).append hslash
  have hscan := hinside.scanTag rest
  have htoken := openingToken_written hname attributes closed
  simp only [List.append_assoc] at hscan htoken ⊢
  rw [scanMarkup_opening hname, hscan]
  exact congrArg (fun token => some (some token, rest)) htoken

theorem yields_openingText (hkeys : ∀ pair ∈ attributes, IsWord pair.1) :
    Yields (openingText name attributes).toList [tagToken name attributes false] := by
  have hscan : ∀ rest,
      scanMarkup ((name.toList ++ (attributesText attributes).toList ++ ['>']) ++ rest) =
        some (some (tagToken name attributes false), rest) :=
    fun rest => by simpa using scanMarkup_tag hname hkeys false rest
  simpa [openingText] using yields_markup hscan

theorem yields_closedText (hkeys : ∀ pair ∈ attributes, IsWord pair.1) :
    Yields (closedText name attributes).toList [tagToken name attributes true] := by
  have hscan : ∀ rest,
      scanMarkup ((name.toList ++ (attributesText attributes).toList ++ ['/', '>']) ++ rest) =
        some (some (tagToken name attributes true), rest) :=
    fun rest => by simpa using scanMarkup_tag hname hkeys true rest
  simpa [closedText] using yields_markup hscan

theorem yields_closingText : Yields (closingText name).toList [.closing name.toList] := by
  have hscan : ∀ rest, scanMarkup (('/' :: (name.toList ++ ['>'])) ++ rest) =
      some (some (.closing name.toList), rest) := by
    intro rest
    have htag := (passes_word hname.2).scanTag rest
    rw [List.cons_append, List.append_assoc, List.singleton_append, scanMarkup, htag]
    exact congrArg (fun name => some (some (Token.closing name), rest)) (closingName_word hname)
  simpa [closingText] using yields_markup hscan

end Tags

/-! ### Nesting -/

/-- Tokens that leave the open elements as they are and close nothing but what they open. -/
def Balanced (given : List Token) : Prop :=
  ∀ opened rest, checkNesting opened (given ++ rest) = given ++ checkNesting opened rest

theorem balanced_nil : Balanced [] := fun _ _ => rfl

theorem balanced_closed (name : String) (attributes : Attributes) :
    Balanced [tagToken name attributes true] := fun _ _ => rfl

theorem Balanced.append {a b : List Token} (ha : Balanced a) (hb : Balanced b) :
    Balanced (a ++ b) := by
  intro opened rest
  rw [List.append_assoc, ha, hb, List.append_assoc]

theorem balanced_flatMap {α : Type} {f : α → List Token} {xs : List α}
    (h : ∀ x ∈ xs, Balanced (f x)) : Balanced (xs.flatMap f) := by
  induction xs with
  | nil => exact balanced_nil
  | cons x xs ih =>
    obtain ⟨hx, hxs⟩ := List.forall_mem_cons.1 h
    exact hx.append (ih hxs)

/-- An element with balanced content is balanced. -/
theorem Balanced.element {content : List Token} (h : Balanced content) (name : String)
    (attributes : Attributes) :
    Balanced (tagToken name attributes false :: content ++ [.closing name.toList]) := by
  intro opened rest
  have hclose : checkNesting (name.toList :: opened) (.closing name.toList :: rest) =
      .closing name.toList :: checkNesting opened rest := if_pos rfl
  simp only [tagToken, List.cons_append, List.append_assoc, List.nil_append]
  rw [checkNesting]
  change _ :: checkNesting (name.toList :: opened) (content ++ (.closing name.toList :: rest)) = _
  rw [h, hclose]

/-- Balanced tokens pass the check of the nesting as they are. -/
theorem Balanced.checkNesting_nil {given : List Token} (h : Balanced given) :
    checkNesting [] given = given := by
  have hall := h [] []
  rwa [List.append_nil, checkNesting, List.append_nil] at hall

end Markup

end SchemaDrift
