/-
  SchemaDrift/Database/Language.lean
  ==================================
  **What a text tells a SQLite database to do.**

  Statements and queries reach a database as texts.  The readers of this module take
  such a text apart: words, names in quotation marks, in which a doubled mark stands for
  one, and the declared types of columns, which are kept as they are written.  A
  declared type ends at the first comma, line break or closing parenthesis that is not
  inside parentheses of its own, and the words NOT NULL behind it are not part of it.

  The texts that are understood are the statements of SQLite for tables and columns and
  the queries of the catalog, each in one layout.  Any other text is not understood, as
  are the statements of other databases.
-/
import SchemaDrift.Database.Engine

namespace SchemaDrift

namespace Language

/-- The text behind a word that it begins with. -/
def word (w : String) (cs : List Char) : Option (List Char) := w.toList.isPrefixOf? cs

/-- A result at the end of a text. -/
def atEnd {α : Type} (x : α) (rest : List Char) : Option α := if rest.isEmpty then some x else none

/-! ### Names -/

/-- The characters of a name up to the mark that ends it, and what follows. -/
def scanQuoted : List Char → Option (List Char × List Char)
  | [] => none
  | '"' :: '"' :: rest => (scanQuoted rest).map fun (name, rest) => ('"' :: name, rest)
  | '"' :: rest => some ([], rest)
  | c :: rest => (scanQuoted rest).map fun (name, rest) => (c :: name, rest)

def readName (cs : List Char) : Option (String × List Char) := do
  let (name, rest) ← scanQuoted (← word "\"" cs)
  return (String.ofList name, rest)

/-- Names with commas between them, at least one and at most as many as `fuel`. -/
def readNames : Nat → List Char → Option (List String × List Char)
  | 0, _ => none
  | fuel + 1, cs => do
    let (name, rest) ← readName cs
    match word ", " rest with
    | some rest =>
      let (names, rest) ← readNames fuel rest
      return (name :: names, rest)
    | none => return ([name], rest)

/-! ### Columns and tables -/

/-- Whether a declared type ends in front of a character that is not inside parentheses. -/
def endsType (c : Char) : Bool := c == ',' || c == '\n' || c == ')'

/-- The declared type at the beginning of a text, inside so many parentheses, and what follows. -/
def spanType : Nat → List Char → List Char × List Char
  | _, [] => ([], [])
  | depth, c :: cs =>
    if depth == 0 && endsType c then ([], c :: cs)
    else
      let inside := if c == '(' then depth + 1 else if c == ')' then depth - 1 else depth
      let (type, rest) := spanType inside cs
      (c :: type, rest)

/-- The column of a declared type, which may have the mark NOT NULL behind it. -/
def columnOf (name : String) (declared : List Char) : ColumnDefinition :=
  match " NOT NULL".toList.isSuffixOf? declared with
  | some type => ⟨name, String.ofList type, true⟩
  | none => ⟨name, String.ofList declared, false⟩

def readColumn (cs : List Char) : Option (ColumnDefinition × List Char) := do
  let (name, rest) ← readName cs
  let (declared, rest) := spanType 0 (← word " " rest)
  return (columnOf name declared, rest)

def readKey (cs : List Char) : Option (List String × List Char) := do
  let rest ← word "PRIMARY KEY (" cs
  let (names, rest) ← readNames rest.length rest
  return (names, ← word ")" rest)

/-- The parts of a table, at most as many as `fuel`: columns, and the key behind them if there is
    one. -/
def readParts : Nat → List Char → Option ((List ColumnDefinition × List String) × List Char)
  | 0, _ => none
  | fuel + 1, cs =>
    match readKey cs with
    | some (key, rest) => some (([], key), rest)
    | none => do
      let (c, rest) ← readColumn cs
      match word ",\n  " rest with
      | some rest =>
        let ((columns, key), rest) ← readParts fuel rest
        return ((c :: columns, key), rest)
      | none => return (([c], []), rest)

/-! ### Statements -/

def readCreateTable (cs : List Char) : Option Statement := do
  let (table, rest) ← readName (← word "CREATE TABLE " cs)
  let rest ← word " (\n  " rest
  let ((columns, key), rest) ← readParts rest.length rest
  atEnd (.createTable table columns key) (← word "\n)" rest)

def readDropTable (cs : List Char) : Option Statement := do
  let (table, rest) ← readName (← word "DROP TABLE " cs)
  atEnd (.dropTable table false) rest

def readAddColumn (cs : List Char) : Option Statement := do
  let (table, rest) ← readName (← word "ALTER TABLE " cs)
  let (column, rest) ← readColumn (← word " ADD COLUMN " rest)
  atEnd (.addColumn table column) rest

def readDropColumn (cs : List Char) : Option Statement := do
  let (table, rest) ← readName (← word "ALTER TABLE " cs)
  let (column, rest) ← readName (← word " DROP COLUMN " rest)
  atEnd (.dropColumn table column) rest

/-- The statement that a text makes. -/
def readStatement (text : String) : Option Statement :=
  [readCreateTable, readDropTable, readAddColumn, readDropColumn].findSome? (· text.toList)

/-! ### Queries -/

/-- The table that a query names between its words and a closing parenthesis. -/
def readAsked (words : String) (cs : List Char) : Option String := do
  let (table, rest) ← readName (← word words cs)
  atEnd table (← word ")" rest)

/-- The question for the tables of the user. -/
def listing : String :=
  "SELECT name FROM sqlite_master WHERE type = 'table' AND name NOT LIKE 'sqlite_%' ORDER BY name"

/-- The question that a text asks about the catalog. -/
def readQuery (text : String) : Option CatalogQuery :=
  if text = listing then some .tables
  else
    ((readAsked "PRAGMA table_info(" text.toList).map .columns).or
      ((readAsked "PRAGMA foreign_key_list(" text.toList).map .foreignKeys)

end Language

end SchemaDrift
