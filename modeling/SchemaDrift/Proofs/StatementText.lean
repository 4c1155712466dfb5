/-
  SchemaDrift/Proofs/StatementText.lean
  =====================================
  **What a statement still says as a text.**

  A statement is written as one text without marks for its parts, so a name could in
  principle pretend to be a part of the statement: a column named `X" TEXT, "Y` looks like
  two columns when its quotation marks are read as ends of names.  They are doubled, and a
  doubled mark ends nothing: a quoted name ends where a single mark follows
  (`delimited_quoteName`), the name of a known type where neither its words nor its numbers
  go on (`delimited_postgresType`), and so on for columns, lists of names and the items of a
  table, each in front of the characters that can follow it.

  A statement begins with a verb and the name of its table.  Both can be told from what
  follows, as the verb contains no quotation mark (`parts_of_sql_eq`), and the rest, the
  clause, begins differently for every kind of statement.

  Main statement: `Statement.eq_of_sql_eq`.  The types of new columns have to be known ones,
  as the text of any other type stands in the statement as it was declared.
-/
import SchemaDrift.Dialect.Basic
import SchemaDrift.Proofs.Framing

namespace SchemaDrift

/-! ### Quoted names -/

def isQuote (c : Char) : Bool := c == '"'

/-- A name in quotation marks ends at the first quotation mark that is not doubled. -/
theorem doubleQuotes_inj {as bs rest rest' : List Char} (hrest : StartsOutside isQuote rest)
    (hrest' : StartsOutside isQuote rest')
    (h : doubleQuotes as ++ '"' :: rest = doubleQuotes bs ++ '"' :: rest') :
    as = bs ∧ rest = rest' := by
  have hends : ∀ {b : Char} {bs tail tail' : List Char}, StartsOutside isQuote tail →
      '"' :: tail ≠ doubleQuotes (b :: bs) ++ '"' :: tail' := by
    intro b bs tail tail' htail heq
    rw [doubleQuotes] at heq
    split at heq
    next => exact absurd (htail '"' (by simp [(List.cons.inj heq).2])) (by decide)
    next hb => exact hb (List.cons.inj heq).1.symm
  induction as generalizing bs with
  | nil =>
    cases bs with
    | nil => exact ⟨rfl, (List.cons.inj h).2⟩
    | cons b bs => exact absurd h (hends hrest)
  | cons a as ih =>
    cases bs with
    | nil => exact absurd h.symm (hends hrest')
    | cons b bs =>
      have hhead : a = b ∧ doubleQuotes as ++ '"' :: rest = doubleQuotes bs ++ '"' :: rest' := by
        rw [doubleQuotes, doubleQuotes] at h
        by_cases ha : a = '"' <;> by_cases hb : b = '"'
        · simpa [ha, hb] using h
        · rw [if_pos ha, if_neg hb] at h
          exact absurd (List.cons.inj h).1.symm hb
        · rw [if_neg ha, if_pos hb] at h
          exact absurd (List.cons.inj h).1 ha
        · simpa [ha, hb] using h
      obtain ⟨htails, hrests⟩ := ih hhead.2
      exact ⟨by rw [hhead.1, htails], hrests⟩

theorem toList_quoteName (name : String) :
    (quoteName name).toList = '"' :: (doubleQuotes name.toList ++ ['"']) := by
  rw [quoteName, String.toList_ofList]

theorem delimited_quoteName :
    Delimited (fun _ => True) (fun name => (quoteName name).toList) isQuote := by
  intro name name' _ _ rest rest' hrest hrest' h
  simp only [toList_quoteName, List.cons_append, List.append_assoc, List.nil_append,
    List.cons.injEq, true_and] at h
  obtain ⟨hname, heq⟩ := doubleQuotes_inj hrest hrest' h
  exact ⟨String.toList_injective hname, heq⟩

def inNames (c : Char) : Bool := isQuote c || c == ','

theorem delimited_quoteNames :
    Delimited (fun _ => True) (fun names => (quoteNames names).toList) inNames := by
  have hlist := delimited_quoteName.intercalate (c := ',') (s := [' ']) (q := inNames) rfl
    (fun _ => Bool.or_inl) rfl
    (fun name _ hout => absurd (startsOutside_cons.1 (toList_quoteName name ▸ hout)) (by decide))
  intro names names' _ _ rest rest' hrest hrest' h
  simp only [quoteNames, String.toList_intercalate, List.map_map] at h
  exact hlist (fun _ _ => trivial) (fun _ _ => trivial) hrest hrest' h

/-- Words behind something, of which the first character matters. -/
theorem startsOutside_words {p : Char → Bool} (words : String) {rest : List Char}
    (h : words.toList.head?.map p = some false) : StartsOutside p (words.toList ++ rest) := by
  obtain ⟨c, hc, hp⟩ := Option.map_eq_some_iff.1 h
  intro d hd
  rw [List.head?_append_of_ne_nil _ (List.ne_nil_of_mem (List.mem_of_mem_head? hc)), hc] at hd
  cases hd
  exact hp

/-- The words in front of a quoted name, the name and what follows it. -/
theorem split_at_name {words words' rest rest' : List Char} {name name' : String}
    (hwords : '"' ∉ words) (hwords' : '"' ∉ words') (hrest : StartsOutside isQuote rest)
    (hrest' : StartsOutside isQuote rest')
    (h : words ++ ((quoteName name).toList ++ rest) =
      words' ++ ((quoteName name').toList ++ rest')) :
    words = words' ∧ name = name' ∧ rest = rest' := by
  have hblock : ∀ {words : List Char}, '"' ∉ words → ∀ c ∈ words, (!isQuote c) = true := by
    intro words hwords c hc
    rw [Bool.not_eq_true', isQuote, beq_eq_false_iff_ne]
    rintro rfl
    exact hwords hc
  have hquoted : ∀ (name : String) (tail : List Char),
      StartsOutside (!isQuote ·) ((quoteName name).toList ++ tail) := by
    intro name tail
    rw [toList_quoteName]
    exact startsOutside_cons.2 rfl
  obtain ⟨heq, hnamed⟩ := block_inj (hblock hwords) (hblock hwords') (hquoted name rest)
    (hquoted name' rest') h
  obtain ⟨hname, hrests⟩ := delimited_quoteName trivial trivial hrest hrest' hnamed
  exact ⟨heq, hname, hrests⟩

/-! ### Types -/

namespace SqlType

/-- A type with a mapping of its own. -/
def isKnown : SqlType → Bool
  | other _ => false
  | _ => true

/-- The numbers that a type is declared with. -/
def numbers : SqlType → List Nat
  | varchar length | char length => [length.toNat]
  | decimal precision scale => [precision.toNat, scale.toNat]
  | _ => []

/-- The first word of the name of a type. -/
def word (t : SqlType) : List Char := (Dialect.postgresType t).toList.takeWhile Char.isUpper

theorem clampByte_toNat (n : UInt8) : clampByte n.toNat = n := by
  have hsize : n.toNat < 256 := n.toNat_lt
  rw [clampByte, Nat.min_eq_left (by omega), UInt8.ofNat_toNat]

theorem ofBase?_varchar (length : UInt64) :
    ofBase? "VARCHAR" [length.toNat] = some (varchar length) := by
  change some (varchar (UInt64.ofNat length.toNat)) = _
  rw [UInt64.ofNat_toNat]

theorem ofBase?_char (length : UInt64) : ofBase? "CHAR" [length.toNat] = some (char length) := by
  change some (char (UInt64.ofNat length.toNat)) = _
  rw [UInt64.ofNat_toNat]

theorem ofBase?_decimal {base : String} (hbase : base ∈ ["DECIMAL", "NUMERIC"])
    (precision scale : UInt8) :
    ofBase? base [precision.toNat, scale.toNat] = some (decimal precision scale) := by
  have hclamped : ofBase? base [precision.toNat, scale.toNat] =
      some (decimal (clampByte precision.toNat) (clampByte scale.toNat)) := by
    simp only [List.mem_cons, List.not_mem_nil, or_false] at hbase
    rcases hbase with rfl | rfl
    · rfl
    · rfl
  rw [hclamped, clampByte_toNat, clampByte_toNat]

/-- A known type can be told by its first word and its numbers. -/
theorem ofBase?_word {t : SqlType} (h : t.isKnown = true) :
    ofBase? (String.ofList t.word) t.numbers = some t := by
  cases t with
  | other => cases h
  | varchar length =>
    have hword : (varchar length).word = "VARCHAR".toList := by
      simp [word, Dialect.postgresType.eq_def]
    rw [hword, String.ofList_toList]
    exact ofBase?_varchar length
  | char length =>
    have hword : (char length).word = "CHAR".toList := by
      simp [word, Dialect.postgresType.eq_def]
    rw [hword, String.ofList_toList]
    exact ofBase?_char length
  | decimal precision scale =>
    have hword : (decimal precision scale).word = "NUMERIC".toList := by
      simp [word, Dialect.postgresType.eq_def]
    rw [hword, String.ofList_toList]
    exact ofBase?_decimal (by decide) precision scale
  | _ => rfl

end SqlType

/-- The numbers of a type between parentheses, if it has any. -/
def argumentsText : List Nat → List Char
  | [] => []
  | n :: ns => '(' :: (", ".toList.intercalate ((n :: ns).map writeDecimal) ++ [')'])

theorem delimited_argumentsText : Delimited (fun _ => True) argumentsText (· == '(') := by
  have hlist := delimited_writeDecimal.intercalate (c := ',') (s := [' '])
    (q := fun c => c.isDigit || c == ',') rfl (fun _ => Bool.or_inl) rfl
    (fun n _ => not_startsOutside_writeDecimal (fun _ => Bool.or_inl) n)
  intro ns ms _ _ rest rest' hrest hrest' h
  cases ns with
  | nil =>
    cases ms with
    | nil => exact ⟨rfl, h⟩
    | cons m ms => exact absurd h (hrest.ne_append (not_startsOutside_cons rfl))
  | cons n ns =>
    cases ms with
    | nil => exact absurd h.symm (hrest'.ne_append (not_startsOutside_cons rfl))
    | cons m ms =>
      simp only [argumentsText, List.cons_append, List.append_assoc, List.cons.injEq, true_and] at h
      obtain ⟨hns, htail⟩ := hlist (fun _ _ => trivial) (fun _ _ => trivial)
        (startsOutside_cons.2 rfl) (startsOutside_cons.2 rfl) h
      exact ⟨hns, (List.cons.inj htail).2⟩

/-- The second word of the name of a type, which depends on the first. -/
def secondWord (word : List Char) : List Char :=
  if word = "DOUBLE".toList then " PRECISION".toList else []

theorem toList_postgresType {t : SqlType} (h : t.isKnown = true) :
    (Dialect.postgresType t).toList = t.word ++ (secondWord t.word ++ argumentsText t.numbers) := by
  cases t with
  | other => cases h
  | varchar | char | decimal =>
    simp [SqlType.word, Dialect.postgresType.eq_def, SqlType.numbers, secondWord, argumentsText,
      decimal]
  | _ => rfl

def inType (c : Char) : Bool := c.isUpper || c == '('

/-- The name of a known type ends where neither its word nor its numbers can go on. -/
theorem delimited_postgresType :
    Delimited (fun t => t.isKnown = true) (fun t => (Dialect.postgresType t).toList) inType := by
  have hword : ∀ (t : SqlType), ∀ c ∈ t.word, c.isUpper = true := fun t c hc =>
    List.mem_takeWhile_imp hc
  have hahead : ∀ (t : SqlType) {rest : List Char}, StartsOutside inType rest →
      StartsOutside Char.isUpper (secondWord t.word ++ (argumentsText t.numbers ++ rest)) := by
    intro t rest hrest
    rw [secondWord]
    split
    next => exact startsOutside_cons.2 rfl
    next =>
      cases t.numbers with
      | nil => exact hrest.mono fun _ => Bool.or_inl
      | cons n ns => exact startsOutside_cons.2 rfl
  intro t u ht hu rest rest' hrest hrest' h
  simp only [toList_postgresType ht, toList_postgresType hu, List.append_assoc] at h
  obtain ⟨hwords, hbehind⟩ := block_inj (hword t) (hword u) (hahead t hrest) (hahead u hrest') h
  rw [hwords, List.append_cancel_left_eq] at hbehind
  obtain ⟨hnumbers, hrests⟩ := delimited_argumentsText trivial trivial
    (hrest.mono fun _ => Bool.or_inr) (hrest'.mono fun _ => Bool.or_inr) hbehind
  refine ⟨Option.some_inj.1 ?_, hrests⟩
  rw [← SqlType.ofBase?_word ht, hwords, hnumbers, SqlType.ofBase?_word hu]

/-! ### Columns and keys -/

/-- A column whose type is the name of a known type. -/
def ColumnDefinition.IsTyped (c : ColumnDefinition) : Prop :=
  ∃ t : SqlType, t.isKnown = true ∧ Dialect.postgresType t = c.type

def nullMark (notNull : Bool) : List Char := if notNull then " NOT NULL".toList else []

theorem toList_columnSql (c : ColumnDefinition) :
    c.sql.toList = (quoteName c.name).toList ++ (' ' :: (c.type.toList ++ nullMark c.notNull)) := by
  cases h : c.notNull <;> simp [ColumnDefinition.sql, nullMark, h]

theorem delimited_nullMark : Delimited (fun _ => True) nullMark (· == ' ') := by
  intro marked marked' _ _ rest rest' hrest hrest' h
  cases marked <;> cases marked'
  · exact ⟨rfl, h⟩
  · exact absurd h (hrest.ne_append (not_startsOutside_cons rfl))
  · exact absurd h.symm (hrest'.ne_append (not_startsOutside_cons rfl))
  · exact ⟨rfl, List.append_cancel_left h⟩

def inColumn (c : Char) : Bool := inType c || c == ' '

theorem delimited_columnSql :
    Delimited ColumnDefinition.IsTyped (fun c => c.sql.toList) inColumn := by
  have hmark : ∀ (marked : Bool) {rest : List Char}, StartsOutside inColumn rest →
      StartsOutside inType (nullMark marked ++ rest) := by
    intro marked rest hrest
    cases marked with
    | false => exact hrest.mono fun _ => Bool.or_inl
    | true => exact startsOutside_cons.2 rfl
  rintro c d ⟨t, ht, hc⟩ ⟨u, hu, hd⟩ rest rest' hrest hrest' h
  simp only [toList_columnSql, List.append_assoc, List.cons_append] at h
  obtain ⟨hname, h⟩ := delimited_quoteName trivial trivial (startsOutside_cons.2 rfl)
    (startsOutside_cons.2 rfl) h
  rw [← hc, ← hd, List.cons.injEq] at h
  obtain ⟨htype, h⟩ := delimited_postgresType ht hu (hmark _ hrest) (hmark _ hrest') h.2
  obtain ⟨hnull, hrests⟩ := delimited_nullMark trivial trivial
    (hrest.mono fun _ => Bool.or_inr) (hrest'.mono fun _ => Bool.or_inr) h
  refine ⟨?_, hrests⟩
  cases c
  cases d
  simp_all

/-- What stands between the parentheses of a table: a column or the key. -/
abbrev TableItem := ColumnDefinition ⊕ List String

def tableItems (columns : List ColumnDefinition) (key : List String) : List TableItem :=
  columns.map .inl ++ if key.isEmpty then [] else [.inr key]

def itemText : TableItem → String
  | .inl column => column.sql
  | .inr key => "PRIMARY KEY (" ++ quoteNames key ++ ")"

def IsTypedItem : TableItem → Prop
  | .inl column => column.IsTyped
  | .inr _ => True

theorem tableParts_eq (columns : List ColumnDefinition) (key : List String) :
    Statement.tableParts columns key = (tableItems columns key).map itemText := by
  rw [Statement.tableParts, tableItems, List.map_append, List.map_map]
  cases key <;> rfl

theorem tableItems_inj {columns columns' : List ColumnDefinition} {key key' : List String}
    (h : tableItems columns key = tableItems columns' key') : columns = columns' ∧ key = key' := by
  have hleft : ∀ (columns : List ColumnDefinition) (key : List String),
      (tableItems columns key).filterMap Sum.getLeft? = columns := by
    intro columns key
    rw [tableItems, List.filterMap_append, List.filterMap_map]
    split <;> simp [Function.comp_def]
  have hright : ∀ (columns : List ColumnDefinition) (key : List String),
      ((tableItems columns key).filterMap Sum.getRight?).head?.getD [] = key := by
    intro columns key
    rw [tableItems, List.filterMap_append, List.filterMap_map]
    cases key <;> simp [Function.comp_def]
  refine ⟨?_, ?_⟩
  · rw [← hleft columns key, h, hleft]
  · rw [← hright columns key, h, hright]

theorem delimited_itemText :
    Delimited IsTypedItem (fun item => (itemText item).toList) inColumn := by
  have hkinds : ∀ (column : ColumnDefinition) (key : List String) (rest rest' : List Char),
      (itemText (.inl column)).toList ++ rest ≠ (itemText (.inr key)).toList ++ rest' := by
    intro column key rest rest' heq
    simp [itemText.eq_def, toList_columnSql, toList_quoteName] at heq
  intro x y hx hy rest rest' hrest hrest' h
  cases x with
  | inl column =>
    cases y with
    | inl column' =>
      obtain ⟨hcolumn, hrests⟩ := delimited_columnSql hx hy hrest hrest' h
      exact ⟨congrArg Sum.inl hcolumn, hrests⟩
    | inr key => exact absurd h (hkinds _ _ _ _)
  | inr key =>
    cases y with
    | inl column => exact absurd h.symm (hkinds _ _ _ _)
    | inr key' =>
      simp only [itemText.eq_def, String.toList_append, List.append_assoc,
        List.append_cancel_left_eq] at h
      obtain ⟨hkey, hrests⟩ := delimited_quoteNames trivial trivial
        (startsOutside_words ")" rfl) (startsOutside_words ")" rfl) h
      exact ⟨congrArg Sum.inr hkey, List.append_cancel_left hrests⟩

def inItems (c : Char) : Bool := inColumn c || isQuote c || c == ','

theorem delimited_items :
    Delimited (fun items : List TableItem => ∀ item ∈ items, IsTypedItem item)
      (fun items => (String.intercalate ",\n  " (items.map itemText)).toList) inItems := by
  have hlist := delimited_itemText.intercalate (c := ',') (s := ['\n', ' ', ' ']) (q := inItems)
    rfl (fun _ hc => Bool.or_inl (Bool.or_inl hc)) rfl (fun item _ => ?_)
  · intro items items' hitems hitems' rest rest' hrest hrest' h
    simp only [String.toList_intercalate, List.map_map] at h
    exact hlist hitems hitems' hrest hrest' h
  · cases item with
    | inl column =>
      rw [itemText.eq_def, toList_columnSql, toList_quoteName]
      exact not_startsOutside_cons rfl
    | inr key =>
      rw [itemText.eq_def, String.toList_append, String.toList_append]
      exact not_startsOutside_cons rfl

/-! ### Statements -/

namespace Statement

/-- A statement that creates columns of known types only. -/
def IsTyped : Statement → Prop
  | createTable _ columns _ => ∀ c ∈ columns, c.IsTyped
  | addColumn _ column => column.IsTyped
  | _ => True

/-- The words in front of the table of a statement. -/
def verb : Statement → String
  | createTable _ _ _ => "CREATE TABLE "
  | dropTable _ _ => "DROP TABLE "
  | _ => "ALTER TABLE "

def table : Statement → String
  | createTable table _ _ | dropTable table _ | addColumn table _ | dropColumn table _
  | dropConstraint table _ | addPrimaryKey table _ | setType table _ _ | setNotNull table _
  | dropNotNull table _ => table
  | addForeignKey fk => fk.table

/-- What a statement says behind its table. -/
def clause : Statement → String
  | createTable _ columns key =>
    " (\n  " ++ (String.intercalate ",\n  " (tableParts columns key) ++ "\n)")
  | dropTable _ cascade => if cascade then " CASCADE" else ""
  | addColumn _ column => " ADD COLUMN " ++ column.sql
  | dropColumn _ column => " DROP COLUMN " ++ quoteName column
  | addForeignKey fk =>
    " ADD CONSTRAINT " ++ (quoteName fk.constraintName ++ (" FOREIGN KEY (" ++
      (quoteNames fk.columns ++ (") REFERENCES " ++ (quoteName fk.referencedTable ++ (" (" ++
        (quoteNames fk.referencedColumns ++ ")")))))))
  | dropConstraint _ constraint => " DROP CONSTRAINT " ++ quoteName constraint
  | addPrimaryKey _ columns => " ADD PRIMARY KEY (" ++ (quoteNames columns ++ ")")
  | setType _ column type => " ALTER COLUMN " ++ (quoteName column ++ (" TYPE " ++ type))
  | setNotNull _ column => " ALTER COLUMN " ++ (quoteName column ++ " SET NOT NULL")
  | dropNotNull _ column => " ALTER COLUMN " ++ (quoteName column ++ " DROP NOT NULL")

theorem sql_eq (s : Statement) : s.sql = s.verb ++ (quoteName s.table ++ s.clause) := by
  cases s <;> simp only [sql.eq_def, verb.eq_def, table.eq_def, clause.eq_def, String.append_assoc]

theorem startsOutside_clause (s : Statement) : StartsOutside isQuote s.clause.toList := by
  cases s
  case dropTable table cascade => cases cascade <;> simp [clause.eq_def, StartsOutside, isQuote]
  all_goals simp [clause.eq_def, StartsOutside, isQuote]

/-- A statement names its table in front of everything else. -/
theorem parts_of_sql_eq {s t : Statement} (h : s.sql = t.sql) :
    s.verb = t.verb ∧ s.table = t.table ∧ s.clause.toList = t.clause.toList := by
  have hfree : ∀ s : Statement, '"' ∉ s.verb.toList := by
    intro s
    cases s <;> simp [verb.eq_def]
  have htext := congrArg String.toList h
  simp only [sql_eq, String.toList_append] at htext
  obtain ⟨hverb, htable, hclause⟩ := split_at_name (hfree s) (hfree t) (startsOutside_clause s)
    (startsOutside_clause t) htext
  exact ⟨String.toList_injective hverb, htable, hclause⟩

/-! ### Clauses -/

theorem tableClause_inj {columns columns' : List ColumnDefinition} {key key' : List String}
    (hcolumns : ∀ c ∈ columns, c.IsTyped) (hcolumns' : ∀ c ∈ columns', c.IsTyped)
    (h : (String.intercalate ",\n  " (tableParts columns key)).toList ++ "\n)".toList =
      (String.intercalate ",\n  " (tableParts columns' key')).toList ++ "\n)".toList) :
    columns = columns' ∧ key = key' := by
  have htyped : ∀ {columns : List ColumnDefinition} {key : List String},
      (∀ c ∈ columns, c.IsTyped) → ∀ item ∈ tableItems columns key, IsTypedItem item := by
    intro columns key hcolumns item hitem
    rcases List.mem_append.1 hitem with hcolumn | hkey
    · obtain ⟨c, hc, rfl⟩ := List.mem_map.1 hcolumn
      exact hcolumns c hc
    · split at hkey
      · cases hkey
      · rw [List.mem_singleton.1 hkey]
        trivial
  have hend : StartsOutside inItems "\n)".toList := startsOutside_cons.2 rfl
  rw [tableParts_eq, tableParts_eq] at h
  exact tableItems_inj (delimited_items (htyped hcolumns) (htyped hcolumns') hend hend h).1

theorem foreignKeyClause_inj {constraint constraint' table table' : String}
    {columns columns' referenced referenced' : List String}
    (h : (quoteName constraint).toList ++ (" FOREIGN KEY (".toList ++
        ((quoteNames columns).toList ++ (") REFERENCES ".toList ++ ((quoteName table).toList ++
          (" (".toList ++ ((quoteNames referenced).toList ++ ")".toList)))))) =
      (quoteName constraint').toList ++ (" FOREIGN KEY (".toList ++
        ((quoteNames columns').toList ++ (") REFERENCES ".toList ++ ((quoteName table').toList ++
          (" (".toList ++ ((quoteNames referenced').toList ++ ")".toList))))))) :
    columns = columns' ∧ table = table' ∧ referenced = referenced' := by
  obtain ⟨-, h⟩ := delimited_quoteName trivial trivial (startsOutside_words " FOREIGN KEY (" rfl)
    (startsOutside_words " FOREIGN KEY (" rfl) h
  obtain ⟨hcolumns, h⟩ := delimited_quoteNames trivial trivial
    (startsOutside_words ") REFERENCES " rfl) (startsOutside_words ") REFERENCES " rfl)
    (List.append_cancel_left h)
  obtain ⟨htable, h⟩ := delimited_quoteName trivial trivial (startsOutside_words " (" rfl)
    (startsOutside_words " (" rfl) (List.append_cancel_left h)
  have hend : StartsOutside inNames ")".toList := startsOutside_cons.2 rfl
  obtain ⟨hreferenced, -⟩ := delimited_quoteNames trivial trivial hend hend
    (List.append_cancel_left h)
  exact ⟨hcolumns, htable, hreferenced⟩

/-- What an alteration of a column says, and what it says behind the column. -/
def alteration? : Statement → Option (String × List Char)
  | setType _ column type => some (column, " TYPE ".toList ++ type.toList)
  | setNotNull _ column => some (column, " SET NOT NULL".toList)
  | dropNotNull _ column => some (column, " DROP NOT NULL".toList)
  | _ => none

theorem alteration_inj {s t : Statement} {a b : String × List Char} (hs : s.alteration? = some a)
    (ht : t.alteration? = some b) (h : s.clause.toList = t.clause.toList) : a = b := by
  have hclause : ∀ {s : Statement} {a : String × List Char}, s.alteration? = some a →
      s.clause.toList = " ALTER COLUMN ".toList ++ ((quoteName a.1).toList ++ a.2) ∧
        StartsOutside isQuote a.2 := by
    intro s a hs
    cases s <;> cases hs
    · refine ⟨?_, startsOutside_words " TYPE " rfl⟩
      simp only [clause.eq_def, String.toList_append]
    · refine ⟨?_, startsOutside_cons.2 rfl⟩
      simp only [clause.eq_def, String.toList_append]
    · refine ⟨?_, startsOutside_cons.2 rfl⟩
      simp only [clause.eq_def, String.toList_append]
  obtain ⟨hs, hstart⟩ := hclause hs
  obtain ⟨ht, hstart'⟩ := hclause ht
  rw [hs, ht, List.append_cancel_left_eq] at h
  obtain ⟨hcolumn, hending⟩ := delimited_quoteName trivial trivial hstart hstart' h
  exact Prod.ext hcolumn hending

theorem quoteName_inj {name name' : String}
    (h : (quoteName name).toList = (quoteName name').toList) : name = name' :=
  delimited_quoteName.injOn trivial trivial h

/-- **The text of a statement determines the statement**, whatever the names in it, if the types of
    the columns it creates are known ones. -/
theorem eq_of_sql_eq {s t : Statement} (hs : s.IsTyped) (ht : t.IsTyped) (h : s.sql = t.sql) :
    s = t := by
  obtain ⟨hverb, htable, hclause⟩ := parts_of_sql_eq h
  cases s with
  | createTable table columns key =>
    cases t with
    | createTable table' columns' key' =>
      simp only [clause.eq_def, String.toList_append, List.append_cancel_left_eq] at hclause
      obtain ⟨rfl, rfl⟩ := tableClause_inj hs ht hclause
      exact congrArg (createTable · columns key) htable
    | _ => simp [verb.eq_def] at hverb
  | dropTable table cascade =>
    cases t with
    | dropTable table' cascade' =>
      have hcascade : cascade = cascade' := by
        cases cascade <;> cases cascade' <;> simp [clause.eq_def] at hclause ⊢
      exact congrArg₂ dropTable htable hcascade
    | _ => simp [verb.eq_def] at hverb
  | addColumn table column =>
    cases t with
    | addColumn table' column' =>
      simp only [clause.eq_def, String.toList_append, List.append_cancel_left_eq] at hclause
      exact congrArg₂ addColumn htable (delimited_columnSql.injOn hs ht hclause)
    | _ => simp [verb.eq_def, clause.eq_def] at hverb hclause
  | dropColumn table column =>
    cases t with
    | dropColumn table' column' =>
      simp only [clause.eq_def, String.toList_append, List.append_cancel_left_eq] at hclause
      exact congrArg₂ dropColumn htable (quoteName_inj hclause)
    | _ => simp [verb.eq_def, clause.eq_def] at hverb hclause
  | addForeignKey fk =>
    cases t with
    | addForeignKey fk' =>
      simp only [clause.eq_def, String.toList_append, List.append_cancel_left_eq] at hclause
      obtain ⟨hcolumns, hreferenced, hreferencedColumns⟩ := foreignKeyClause_inj hclause
      cases fk
      cases fk'
      simp_all [table.eq_def]
    | _ => simp [verb.eq_def, clause.eq_def] at hverb hclause
  | dropConstraint table constraint =>
    cases t with
    | dropConstraint table' constraint' =>
      simp only [clause.eq_def, String.toList_append, List.append_cancel_left_eq] at hclause
      exact congrArg₂ dropConstraint htable (quoteName_inj hclause)
    | _ => simp [verb.eq_def, clause.eq_def] at hverb hclause
  | addPrimaryKey table columns =>
    cases t with
    | addPrimaryKey table' columns' =>
      simp only [clause.eq_def, String.toList_append, List.append_cancel_left_eq] at hclause
      have hend : StartsOutside inNames ")".toList := startsOutside_cons.2 rfl
      exact congrArg₂ addPrimaryKey htable
        (delimited_quoteNames trivial trivial hend hend hclause).1
    | _ => simp [verb.eq_def, clause.eq_def] at hverb hclause
  | setType table column type =>
    cases t with
    | setType table' column' type' =>
      have halteration := alteration_inj rfl rfl hclause
      simp only [Prod.mk.injEq, List.append_cancel_left_eq, String.toList_inj] at halteration
      rw [show table = table' from htable, halteration.1, halteration.2]
    | setNotNull | dropNotNull => simpa using alteration_inj rfl rfl hclause
    | _ => simp [verb.eq_def, clause.eq_def] at hverb hclause
  | setNotNull table column =>
    cases t with
    | setNotNull table' column' =>
      have halteration := alteration_inj rfl rfl hclause
      exact congrArg₂ setNotNull htable (Prod.mk.inj halteration).1
    | setType | dropNotNull => simpa using alteration_inj rfl rfl hclause
    | _ => simp [verb.eq_def, clause.eq_def] at hverb hclause
  | dropNotNull table column =>
    cases t with
    | dropNotNull table' column' =>
      have halteration := alteration_inj rfl rfl hclause
      exact congrArg₂ dropNotNull htable (Prod.mk.inj halteration).1
    | setType | setNotNull => simpa using alteration_inj rfl rfl hclause
    | _ => simp [verb.eq_def, clause.eq_def] at hverb hclause

end Statement

end SchemaDrift
