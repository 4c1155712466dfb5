/-
  SchemaDrift/Proofs/Reading.lean
  ===============================
  **A statement is read as what it says.**

  The readers take a text apart from the left, so each of them is known by what it does with
  its own text in front of any other text that can stand there: a quoted name may not be
  followed by another quotation mark (`readName_quoteName`), a list of names not by a comma,
  a column only by what ends a declared type (`readColumn_sql`).  Lists are read with a bound
  on the number of their items, for which the length of the text is enough, as no item is
  empty (`length_le_toList_intercalate`).

  A declared type is kept as it is written.  It ends where it should if it is a word in
  capital letters, as the names of the SQLite types are.

  Main statements: `readStatement_sql` for the statements of SQLite, `readQuery_sql` for the
  questions about its catalog.
-/
import SchemaDrift.Database.Language
import SchemaDrift.Proofs.StatementText

namespace SchemaDrift

/-- A column whose declared type is a word in capital letters. -/
def ColumnDefinition.IsPlain (c : ColumnDefinition) : Prop := c.type.toList.all Char.isUpper = true

/-- A statement of SQLite: it creates or drops tables or columns, the created columns have plain
    types, and a created table has something between its parentheses. -/
def Statement.IsPlain : Statement → Prop
  | createTable _ columns key => (∀ c ∈ columns, c.IsPlain) ∧ tableParts columns key ≠ []
  | dropTable _ cascade => cascade = false
  | addColumn _ column => column.IsPlain
  | dropColumn _ _ => True
  | _ => False

/-! ### Lists with separators -/

/-- A list with separators has at least as many characters as items, if no item is empty. -/
theorem length_le_intercalate (sep : List Char) {texts : List (List Char)}
    (h : ∀ text ∈ texts, text ≠ []) : texts.length ≤ (sep.intercalate texts).length := by
  induction texts with
  | nil => exact Nat.zero_le _
  | cons text texts ih =>
    obtain ⟨htext, htexts⟩ := List.forall_mem_cons.1 h
    have hpos : 0 < text.length := List.length_pos_iff.2 htext
    have hrest := ih htexts
    cases texts with
    | nil => simpa [Nat.one_le_iff_ne_zero, Nat.pos_iff_ne_zero] using hpos
    | cons next texts =>
      rw [List.intercalate_cons_cons, List.length_append, List.length_append, List.length_cons]
      omega

/-- So the length of a text that begins with a list is enough to count the items of the list. -/
theorem length_le_toList_intercalate (sep : String) {texts : List String}
    (h : ∀ text ∈ texts, text.toList ≠ []) (rest : List Char) :
    texts.length ≤ ((String.intercalate sep texts).toList ++ rest).length := by
  have hlength := length_le_intercalate sep.toList (List.forall_mem_map.2 h)
  rw [List.length_map] at hlength
  rw [String.toList_intercalate, List.length_append]
  exact hlength.trans (Nat.le_add_right _ _)

theorem toList_intercalate_cons (sep text : String) {texts : List String} (h : texts ≠ []) :
    (String.intercalate sep (text :: texts)).toList =
      text.toList ++ (sep.toList ++ (String.intercalate sep texts).toList) := by
  obtain ⟨next, texts, rfl⟩ := List.exists_cons_of_ne_nil h
  simp [String.toList_intercalate]

namespace Language

open Statement (tableParts)

/-! ### Words -/

theorem word_append (w : String) (rest : List Char) : word w (w.toList ++ rest) = some rest :=
  List.isPrefixOf?_eq_some_iff_append_eq.2 rfl

theorem word_self (w : String) : word w w.toList = some [] := by
  simpa using word_append w []

theorem word_eq_none {w : String} {p : Char → Bool} {rest : List Char}
    (hw : w.toList.head?.map p = some true) (h : StartsOutside p rest) : word w rest = none := by
  cases hword : word w rest with
  | none => rfl
  | some tail =>
    have heq := List.append_eq_of_isPrefixOf?_eq_some hword
    obtain ⟨c, hc, hp⟩ := Option.map_eq_some_iff.1 hw
    have hhead : c ∈ rest.head? := heq ▸ List.mem_head?_append_of_mem_head? hc
    rw [h c hhead] at hp
    cases hp

/-! ### Names -/

theorem scanQuoted_doubleQuotes (cs : List Char) {rest : List Char}
    (h : StartsOutside isQuote rest) :
    scanQuoted (doubleQuotes cs ++ '"' :: rest) = some (cs, rest) := by
  induction cs with
  | nil =>
    cases rest with
    | nil => rfl
    | cons d rest =>
      have hd : d ≠ '"' := by simpa [isQuote] using startsOutside_cons.1 h
      simp [doubleQuotes, scanQuoted, hd]
  | cons c cs ih =>
    rw [doubleQuotes]
    split
    next hc =>
      subst hc
      simp [scanQuoted, ih]
    next hc => simp [scanQuoted, hc, ih]

theorem readName_quoteName (name : String) {rest : List Char} (h : StartsOutside isQuote rest) :
    readName ((quoteName name).toList ++ rest) = some (name, rest) := by
  have hmark : (quoteName name).toList ++ rest =
      "\"".toList ++ (doubleQuotes name.toList ++ '"' :: rest) := by
    simp [toList_quoteName]
  rw [readName, hmark, word_append]
  simp [scanQuoted_doubleQuotes _ h]

theorem readName_self (name : String) : readName (quoteName name).toList = some (name, []) := by
  simpa using readName_quoteName name (startsOutside_nil isQuote)

theorem readNames_quoteNames {names : List String} (hnames : names ≠ []) {fuel : Nat}
    (hfuel : names.length ≤ fuel) {rest : List Char} (hrest : StartsOutside inNames rest) :
    readNames fuel ((quoteNames names).toList ++ rest) = some (names, rest) := by
  induction names generalizing fuel with
  | nil => exact absurd rfl hnames
  | cons name names ih =>
    obtain ⟨fuel, rfl⟩ := Nat.exists_eq_succ_of_ne_zero (Nat.ne_zero_of_lt hfuel)
    rcases eq_or_ne names [] with rfl | hmore
    · have hname := readName_quoteName name (hrest.mono fun _ => Bool.or_inl)
      have hend : word ", " rest = none :=
        @word_eq_none _ (· == ',') _ rfl (hrest.mono fun _ => Bool.or_inr)
      simp [quoteNames, readNames, hname, hend]
    · have htail := ih hmore (Nat.le_of_succ_le_succ hfuel)
      have hname := readName_quoteName name
        (@startsOutside_words _ ", " ((quoteNames names).toList ++ rest) rfl)
      have htext : (quoteNames (name :: names)).toList =
          (quoteName name).toList ++ (", ".toList ++ (quoteNames names).toList) :=
        toList_intercalate_cons ", " (quoteName name) (by simpa using hmore)
      rw [htext, List.append_assoc, List.append_assoc, readNames, hname]
      simp only [Option.bind_eq_bind, Option.bind_some, word_append, htail]
      rfl

/-! ### Columns -/

/-- Whether a character goes on with a declared type and opens no parentheses. -/
def inPlainType (c : Char) : Bool := !endsType c && c != '('

theorem spanType_append {block rest : List Char} (hblock : ∀ c ∈ block, inPlainType c = true)
    (hrest : StartsOutside (!endsType ·) rest) : spanType 0 (block ++ rest) = (block, rest) := by
  induction block with
  | nil =>
    cases rest with
    | nil => rfl
    | cons c rest =>
      have hc : endsType c = true := by simpa using startsOutside_cons.1 hrest
      simp [spanType, hc]
  | cons c block ih =>
    obtain ⟨hplain, hblock⟩ := List.forall_mem_cons.1 hblock
    obtain ⟨hc, hopen⟩ : endsType c = false ∧ c ≠ '(' := by simpa [inPlainType] using hplain
    have hclose : c ≠ ')' := by
      rintro rfl
      cases hc
    simp [spanType, hc, hopen, hclose, ih hblock]

theorem columnOf_sql {c : ColumnDefinition} (hc : c.IsPlain) :
    columnOf c.name (c.type.toList ++ nullMark c.notNull) = c := by
  obtain ⟨name, type, notNull⟩ := c
  cases notNull with
  | true =>
    have hmark : " NOT NULL".toList.isSuffixOf? (type.toList ++ nullMark true) = some type.toList :=
      List.isSuffixOf?_eq_some_iff_append_eq.2 rfl
    simp only [columnOf, hmark, String.ofList_toList]
  | false =>
    have hmark : " NOT NULL".toList.isSuffixOf? type.toList = none := by
      cases hsuffix : " NOT NULL".toList.isSuffixOf? type.toList with
      | none => rfl
      | some rest =>
        have heq := List.append_eq_of_isSuffixOf?_eq_some hsuffix
        have hspace : ' ' ∈ type.toList := by simp [← heq]
        exact absurd (List.all_eq_true.1 hc ' ' hspace) (by decide)
    have hnone : nullMark false = [] := rfl
    simp only [columnOf, hnone, List.append_nil, hmark, String.ofList_toList]

theorem inPlainType_of_isUpper {c : Char} (hc : c.isUpper = true) : inPlainType c = true := by
  have hne : ∀ d : Char, d.isUpper = false → (c == d) = false := by
    intro d hd
    rw [beq_eq_false_iff_ne]
    rintro rfl
    rw [hc] at hd
    cases hd
  rw [inPlainType, endsType, bne, hne ',' rfl, hne '\n' rfl, hne ')' rfl, hne '(' rfl]
  rfl

theorem readColumn_sql {c : ColumnDefinition} (hc : c.IsPlain) {rest : List Char}
    (hrest : StartsOutside (!endsType ·) rest) :
    readColumn (c.sql.toList ++ rest) = some (c, rest) := by
  have hmark : ∀ notNull : Bool, (nullMark notNull).all inPlainType = true := by decide
  have hblock : ∀ d ∈ c.type.toList ++ nullMark c.notNull, inPlainType d = true := by
    intro d hd
    rcases List.mem_append.1 hd with htype | hd
    · exact inPlainType_of_isUpper (List.all_eq_true.1 hc d htype)
    · exact List.all_eq_true.1 (hmark _) d hd
  have hname := readName_quoteName c.name
    (@startsOutside_words _ " " (c.type.toList ++ nullMark c.notNull ++ rest) rfl)
  have htext : c.sql.toList ++ rest = (quoteName c.name).toList ++
      (" ".toList ++ (c.type.toList ++ nullMark c.notNull ++ rest)) := by
    simp [toList_columnSql]
  rw [htext, readColumn, hname]
  simp only [Option.bind_eq_bind, Option.bind_some, word_append, spanType_append hblock hrest,
    columnOf_sql hc]
  rfl

/-! ### Tables -/

theorem readKey_append {key : List String} (hkey : key ≠ []) (rest : List Char) :
    readKey (("PRIMARY KEY (" ++ quoteNames key ++ ")").toList ++ rest) = some (key, rest) := by
  have hfuel : key.length ≤ ((quoteNames key).toList ++ (")".toList ++ rest)).length := by
    have hquoted : ∀ text ∈ key.map quoteName, text.toList ≠ [] :=
      List.forall_mem_map.2 fun name _ => by simp [toList_quoteName]
    have hlength := length_le_toList_intercalate ", " hquoted (")".toList ++ rest)
    rwa [List.length_map] at hlength
  have hnames := readNames_quoteNames hkey hfuel
    (@startsOutside_words inNames ")" rest rfl)
  rw [String.toList_append, String.toList_append, List.append_assoc, List.append_assoc, readKey,
    word_append]
  simp only [Option.bind_eq_bind, Option.bind_some, hnames, word_append]
  rfl

theorem readKey_columnSql (c : ColumnDefinition) (rest : List Char) :
    readKey (c.sql.toList ++ rest) = none := by
  have hword : word "PRIMARY KEY (" (c.sql.toList ++ rest) = none :=
    @word_eq_none _ (· == 'P') _ rfl (by simp [toList_columnSql, toList_quoteName, StartsOutside])
  rw [readKey, hword]
  rfl

/-- Columns are read while a comma follows; the key, which begins with a word where a column begins
    with a quotation mark, ends the list. -/
theorem readParts_tableParts {columns : List ColumnDefinition} {key : List String}
    (hcolumns : ∀ c ∈ columns, c.IsPlain) (hparts : tableParts columns key ≠ []) {fuel : Nat}
    (hfuel : (tableParts columns key).length ≤ fuel) {rest : List Char}
    (hrest : StartsOutside (fun c => !endsType c || c == ',') rest) :
    readParts fuel ((String.intercalate ",\n  " (tableParts columns key)).toList ++ rest) =
      some ((columns, key), rest) := by
  induction columns generalizing fuel with
  | nil =>
    have hkey : key ≠ [] := by
      rintro rfl
      exact hparts rfl
    have htable : tableParts [] key = ["PRIMARY KEY (" ++ quoteNames key ++ ")"] := by
      simp [tableParts, hkey]
    rw [htable] at hfuel ⊢
    obtain ⟨fuel, rfl⟩ := Nat.exists_eq_succ_of_ne_zero (Nat.ne_zero_of_lt hfuel)
    rw [String.toList_intercalate, List.map_singleton, List.intercalate_singleton, readParts,
      readKey_append hkey]
  | cons c columns ih =>
    obtain ⟨hc, hcolumns⟩ := List.forall_mem_cons.1 hcolumns
    have htable : tableParts (c :: columns) key = c.sql :: tableParts columns key := rfl
    rw [htable] at hfuel ⊢
    obtain ⟨fuel, rfl⟩ := Nat.exists_eq_succ_of_ne_zero (Nat.ne_zero_of_lt hfuel)
    rcases eq_or_ne (tableParts columns key) [] with hlast | hmore
    · obtain ⟨rfl, rfl⟩ : columns = [] ∧ key = [] := by
        simpa [tableParts] using hlast
      have hcolumn := readColumn_sql hc (hrest.mono fun _ => Bool.or_inl)
      have hend : word ",\n  " rest = none :=
        @word_eq_none _ (· == ',') _ rfl (hrest.mono fun _ => Bool.or_inr)
      rw [hlast, String.toList_intercalate, List.map_singleton, List.intercalate_singleton,
        readParts, readKey_columnSql]
      simp only [Option.bind_eq_bind, hcolumn, Option.bind_some, hend]
      rfl
    · have htail := ih hcolumns hmore (Nat.le_of_succ_le_succ hfuel)
      have hcolumn := readColumn_sql hc (@startsOutside_words _ ",\n  "
        ((String.intercalate ",\n  " (tableParts columns key)).toList ++ rest) rfl)
      rw [toList_intercalate_cons _ _ hmore, List.append_assoc, List.append_assoc, readParts,
        readKey_columnSql]
      simp only [Option.bind_eq_bind, hcolumn, Option.bind_some, word_append, htail]
      rfl

theorem length_tableParts_le (columns : List ColumnDefinition) (key : List String)
    (rest : List Char) :
    (tableParts columns key).length ≤
      ((String.intercalate ",\n  " (tableParts columns key)).toList ++ rest).length := by
  refine length_le_toList_intercalate ",\n  " (fun part hpart => ?_) rest
  rcases List.mem_append.1 hpart with hcolumn | hkey
  · obtain ⟨c, -, rfl⟩ := List.mem_map.1 hcolumn
    simp [toList_columnSql, toList_quoteName]
  · split at hkey
    next => cases hkey
    next => simp [List.mem_singleton.1 hkey]

/-! ### Statements -/

theorem readCreateTable_sql {table : String} {columns : List ColumnDefinition} {key : List String}
    (h : (Statement.createTable table columns key).IsPlain) :
    readCreateTable (Statement.createTable table columns key).sql.toList =
      some (.createTable table columns key) := by
  obtain ⟨hcolumns, hparts⟩ := h
  have hname := readName_quoteName table (@startsOutside_words _ " (\n  "
    ((String.intercalate ",\n  " (tableParts columns key)).toList ++ "\n)".toList) rfl)
  have hout : StartsOutside (fun c => !endsType c || c == ',') "\n)".toList :=
    startsOutside_cons.2 rfl
  have hread := readParts_tableParts hcolumns hparts
    (length_tableParts_le columns key "\n)".toList) hout
  simp only [Statement.sql.eq_def, String.toList_append, List.append_assoc]
  rw [readCreateTable, word_append]
  simp only [Option.bind_eq_bind, Option.bind_some, hname, word_append, hread, word_self]
  rfl

theorem toList_dropTableSql (table : String) :
    (Statement.dropTable table false).sql.toList =
      "DROP TABLE ".toList ++ (quoteName table).toList := by
  simp [Statement.sql.eq_def]

theorem readDropTable_sql (table : String) :
    readDropTable (Statement.dropTable table false).sql.toList = some (.dropTable table false) := by
  rw [toList_dropTableSql, readDropTable, word_append]
  simp only [Option.bind_eq_bind, Option.bind_some, readName_self]
  rfl

theorem readAddColumn_sql {table : String} {column : ColumnDefinition} (hc : column.IsPlain) :
    readAddColumn (Statement.addColumn table column).sql.toList =
      some (.addColumn table column) := by
  have hname := readName_quoteName table
    (@startsOutside_words _ " ADD COLUMN " column.sql.toList rfl)
  have hcolumn := readColumn_sql hc (startsOutside_nil _)
  rw [List.append_nil] at hcolumn
  simp only [Statement.sql.eq_def, String.toList_append, List.append_assoc]
  rw [readAddColumn, word_append]
  simp only [Option.bind_eq_bind, Option.bind_some, hname, word_append, hcolumn]
  rfl

theorem readDropColumn_sql (table column : String) :
    readDropColumn (Statement.dropColumn table column).sql.toList =
      some (.dropColumn table column) := by
  have hname := readName_quoteName table
    (@startsOutside_words _ " DROP COLUMN " (quoteName column).toList rfl)
  simp only [Statement.sql.eq_def, String.toList_append, List.append_assoc]
  rw [readDropColumn, word_append]
  simp only [Option.bind_eq_bind, Option.bind_some, hname, word_append, readName_self]
  rfl

theorem readCreateTable_dropTable (table : String) :
    readCreateTable (Statement.dropTable table false).sql.toList = none := by
  have hword : word "CREATE TABLE " ("DROP TABLE ".toList ++ (quoteName table).toList) = none :=
    word_eq_none (p := (· == 'C')) rfl (startsOutside_words "DROP TABLE " rfl)
  rw [toList_dropTableSql, readCreateTable, hword]
  rfl

/-- An alteration is neither the creation nor the drop of a table. -/
theorem readTable_alteration {s : Statement} (h : s.verb = "ALTER TABLE ") :
    readCreateTable s.sql.toList = none ∧ readDropTable s.sql.toList = none := by
  have hcreate : ∀ rest, word "CREATE TABLE " ("ALTER TABLE ".toList ++ rest) = none := fun _ =>
    word_eq_none (p := (· == 'C')) rfl (startsOutside_words "ALTER TABLE " rfl)
  have hdrop : ∀ rest, word "DROP TABLE " ("ALTER TABLE ".toList ++ rest) = none := fun _ =>
    word_eq_none (p := (· == 'D')) rfl (startsOutside_words "ALTER TABLE " rfl)
  rw [s.sql_eq, h, String.toList_append, readCreateTable, hcreate, readDropTable, hdrop]
  exact ⟨rfl, rfl⟩

theorem readAddColumn_dropColumn (table column : String) :
    readAddColumn (Statement.dropColumn table column).sql.toList = none := by
  have hname := readName_quoteName table
    (@startsOutside_words _ " DROP COLUMN " (quoteName column).toList rfl)
  have hword : word " ADD COLUMN " (" DROP COLUMN ".toList ++ (quoteName column).toList) = none :=
    by simp [word, List.isPrefixOf?]
  simp only [Statement.sql.eq_def, String.toList_append, List.append_assoc]
  rw [readAddColumn, word_append]
  simp only [Option.bind_eq_bind, Option.bind_some, hname, hword]
  rfl

/-- **The text of a statement is read as the statement.** -/
theorem readStatement_sql {s : Statement} (hs : s.IsPlain) : readStatement s.sql = some s := by
  rw [readStatement, List.findSome?_cons]
  cases s with
  | createTable table columns key => rw [readCreateTable_sql hs]
  | dropTable table cascade =>
    obtain rfl : cascade = false := hs
    rw [readCreateTable_dropTable, List.findSome?_cons, readDropTable_sql]
  | addColumn table column =>
    obtain ⟨hcreate, hdrop⟩ := @readTable_alteration (.addColumn table column) rfl
    rw [hcreate, List.findSome?_cons, hdrop, List.findSome?_cons, readAddColumn_sql hs]
  | dropColumn table column =>
    obtain ⟨hcreate, hdrop⟩ := @readTable_alteration (.dropColumn table column) rfl
    rw [hcreate, List.findSome?_cons, hdrop, List.findSome?_cons, readAddColumn_dropColumn,
      List.findSome?_cons, readDropColumn_sql]
  | _ => exact absurd hs (by simp [Statement.IsPlain])

/-- A table with a quotation mark in its name. -/
example :
    readStatement "CREATE TABLE \"a\"\"b\" (\n  \"X\" TEXT NOT NULL,\n  PRIMARY KEY (\"X\")\n)" =
      some (.createTable "a\"b" [⟨"X", "TEXT", true⟩] ["X"]) := by decide +kernel

/-! ### Queries -/

theorem readAsked_append (words table : String) :
    readAsked words (words ++ quoteName table ++ ")").toList = some table := by
  have hout : StartsOutside isQuote ")".toList := by simp [StartsOutside, isQuote]
  have hname := readName_quoteName table hout
  rw [String.toList_append, String.toList_append, List.append_assoc, readAsked, word_append]
  simp only [Option.bind_eq_bind, Option.bind_some, hname, word_self]
  rfl

theorem ne_listing {text : String} (h : StartsOutside (· == 'S') text.toList) : text ≠ listing := by
  rintro rfl
  simp [StartsOutside, listing] at h

/-- **The text of a question about the catalog is read as the question.** -/
theorem readQuery_sql (q : CatalogQuery) : readQuery q.sql = some q := by
  cases q with
  | tables =>
    have hlisting : CatalogQuery.tables.sql = listing := by
      rw [CatalogQuery.sql.eq_def, listing]
    rw [readQuery, if_pos hlisting]
  | columns table =>
    have hlisting : (CatalogQuery.columns table).sql ≠ listing :=
      ne_listing (by simp [CatalogQuery.sql.eq_def, StartsOutside])
    rw [readQuery, if_neg hlisting]
    simp only [CatalogQuery.sql.eq_def, readAsked_append]
    rfl
  | foreignKeys table =>
    have hlisting : (CatalogQuery.foreignKeys table).sql ≠ listing :=
      ne_listing (by simp [CatalogQuery.sql.eq_def, StartsOutside])
    have hcolumns : readAsked "PRAGMA table_info(" (CatalogQuery.foreignKeys table).sql.toList =
        none := by
      simp [readAsked, word, CatalogQuery.sql.eq_def, List.isPrefixOf?]
    rw [readQuery, if_neg hlisting, hcolumns]
    simp only [CatalogQuery.sql.eq_def, readAsked_append]
    rfl

end Language

end SchemaDrift
