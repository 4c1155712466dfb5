/-
  SchemaDrift/Dialect/Statement.lean
  ==================================
  **Statements of the data definition language.**

  A statement is kept as what it says, and `Statement.sql` is its text.  Identifiers
  stand between quotation marks, and a quotation mark inside one is written twice, so
  that no name can end its own quotation.  The type of a column is the text that a
  dialect has for it.
-/
import SchemaDrift.ForeignKey

namespace SchemaDrift

structure ColumnDefinition where
  name : String
  type : String
  notNull : Bool
deriving Repr, DecidableEq

/-- A statement of the data definition language. -/
inductive Statement where
  | createTable (table : String) (columns : List ColumnDefinition) (key : List String)
  | dropTable (table : String) (cascade : Bool)
  | addColumn (table : String) (column : ColumnDefinition)
  | dropColumn (table column : String)
  | addForeignKey (foreignKey : ForeignKey)
  | dropConstraint (table constraint : String)
  | addPrimaryKey (table : String) (columns : List String)
  | setType (table column type : String)
  | setNotNull (table column : String)
  | dropNotNull (table column : String)
deriving Repr, DecidableEq

/-- A name with every quotation mark written twice. -/
def doubleQuotes : List Char → List Char
  | [] => []
  | c :: cs => if c = '"' then '"' :: '"' :: doubleQuotes cs else c :: doubleQuotes cs

def quoteName (name : String) : String :=
  String.ofList ('"' :: (doubleQuotes name.toList ++ ['"']))

def quoteNames (names : List String) : String := String.intercalate ", " (names.map quoteName)

def ColumnDefinition.sql (c : ColumnDefinition) : String :=
  quoteName c.name ++ " " ++ c.type ++ if c.notNull then " NOT NULL" else ""

namespace Statement

/-- The parts between the parentheses of a table creation: the columns, then the key if there is
    one. -/
def tableParts (columns : List ColumnDefinition) (key : List String) : List String :=
  columns.map ColumnDefinition.sql ++
    if key.isEmpty then [] else ["PRIMARY KEY (" ++ quoteNames key ++ ")"]

/-- The text of a statement, without a semicolon. -/
def sql : Statement → String
  | createTable table columns key =>
    "CREATE TABLE " ++ quoteName table ++ " (\n  " ++
      String.intercalate ",\n  " (tableParts columns key) ++ "\n)"
  | dropTable table cascade =>
    "DROP TABLE " ++ quoteName table ++ if cascade then " CASCADE" else ""
  | addColumn table column => "ALTER TABLE " ++ quoteName table ++ " ADD COLUMN " ++ column.sql
  | dropColumn table column =>
    "ALTER TABLE " ++ quoteName table ++ " DROP COLUMN " ++ quoteName column
  | addForeignKey fk =>
    "ALTER TABLE " ++ quoteName fk.table ++ " ADD CONSTRAINT " ++ quoteName fk.constraintName ++
      " FOREIGN KEY (" ++ quoteNames fk.columns ++ ") REFERENCES " ++
      quoteName fk.referencedTable ++ " (" ++ quoteNames fk.referencedColumns ++ ")"
  | dropConstraint table constraint =>
    "ALTER TABLE " ++ quoteName table ++ " DROP CONSTRAINT " ++ quoteName constraint
  | addPrimaryKey table columns =>
    "ALTER TABLE " ++ quoteName table ++ " ADD PRIMARY KEY (" ++ quoteNames columns ++ ")"
  | setType table column type =>
    "ALTER TABLE " ++ quoteName table ++ " ALTER COLUMN " ++ quoteName column ++ " TYPE " ++ type
  | setNotNull table column =>
    "ALTER TABLE " ++ quoteName table ++ " ALTER COLUMN " ++ quoteName column ++ " SET NOT NULL"
  | dropNotNull table column =>
    "ALTER TABLE " ++ quoteName table ++ " ALTER COLUMN " ++ quoteName column ++ " DROP NOT NULL"

end Statement

end SchemaDrift
