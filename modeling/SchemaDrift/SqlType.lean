/-
  SchemaDrift/SqlType.lean
  ========================
  **Column types, and the types that databases declare.**

  A live database reports the type of a column as the text it was declared with.
  `SqlType.ofDeclared` reads that text: the base name up to an opening parenthesis,
  in any case and with white space around it, decides the type, and the numbers in
  the parentheses its length, or its precision and scale.  Numbers that are no
  64-bit words are passed over, and a type without a known base name is kept as
  `other`, in upper case.
-/
import SchemaDrift.Text.Blank
import SchemaDrift.Text.Decimal

namespace SchemaDrift

inductive SqlType where
  | integer
  | bigInt
  | smallInt
  | boolean
  | text
  | varchar (length : UInt64)
  | char (length : UInt64)
  | decimal (precision scale : UInt8)
  | real
  | double
  | date
  | time
  | timestamp
  | blob
  /-- A declared type without a mapping, kept as it was declared. -/
  | other (declared : String)
deriving Repr, DecidableEq, Inhabited

namespace SqlType

/-! ### Reading a declared type -/

/-- Splits a text at every comma. -/
def splitAtCommas : List Char → List (List Char)
  | [] => [[]]
  | c :: cs =>
    if c = ',' then [] :: splitAtCommas cs
    else
      match splitAtCommas cs with
      | [] => [[c]]
      | part :: parts => (c :: part) :: parts

/-- The numbers between the parentheses of a declared type, given what follows the opening one.
    Closing parentheses at the end are dropped, and arguments that are no numbers with them. -/
def argumentNumbers (rest : List Char) : List Nat :=
  let arguments := (rest.reverse.dropWhile (· = ')')).reverse
  (splitAtCommas arguments).filterMap (readWord ∘ trimBlank)

/-- A precision or scale; what exceeds a byte counts as the largest byte. -/
def clampByte (n : Nat) : UInt8 := UInt8.ofNat (min n 255)

/-- The type with a base name, in upper case, and numeric arguments. -/
def ofBase? (base : String) (numbers : List Nat) : Option SqlType :=
  match base with
  | "INT" | "INTEGER" | "INT4" | "MEDIUMINT" => some .integer
  | "BIGINT" | "INT8" => some .bigInt
  | "SMALLINT" | "INT2" | "TINYINT" => some .smallInt
  | "BOOL" | "BOOLEAN" => some .boolean
  | "TEXT" | "CLOB" => some .text
  | "VARCHAR" | "CHARACTER VARYING" | "NVARCHAR" =>
    match numbers with
    | [] => some .text
    | length :: _ => some (.varchar (UInt64.ofNat length))
  | "CHAR" | "CHARACTER" | "NCHAR" => some (.char (UInt64.ofNat (numbers.headD 1)))
  | "DECIMAL" | "NUMERIC" =>
    some (.decimal (clampByte (numbers.headD 10)) (clampByte (numbers.tail.headD 0)))
  | "REAL" | "FLOAT" | "FLOAT4" => some .real
  | "DOUBLE" | "DOUBLE PRECISION" | "FLOAT8" => some .double
  | "DATE" => some .date
  | "TIME" => some .time
  | "TIMESTAMP" | "DATETIME" => some .timestamp
  | "BLOB" | "BYTEA" => some .blob
  | _ => none

def ofDeclared (declared : String) : SqlType :=
  let upper := (trimBlank declared.toList).map Char.toUpper
  let (base, arguments) := upper.span (· ≠ '(')
  let known := match arguments with
    | [] => ofBase? (String.ofList base) []
    | _ :: rest => ofBase? (String.ofList (trimBlank base)) (argumentNumbers rest)
  known.getD (.other (String.ofList upper))

/-! ### Writing a type -/

/-- The text of a type in messages; it is also a declaration of the type. -/
def display : SqlType → String
  | integer => "INTEGER"
  | bigInt => "BIGINT"
  | smallInt => "SMALLINT"
  | boolean => "BOOLEAN"
  | text => "TEXT"
  | varchar length => "VARCHAR(" ++ SchemaDrift.decimal length.toNat ++ ")"
  | char length => "CHAR(" ++ SchemaDrift.decimal length.toNat ++ ")"
  | decimal precision scale =>
    "DECIMAL(" ++ SchemaDrift.decimal precision.toNat ++ ", " ++
      SchemaDrift.decimal scale.toNat ++ ")"
  | real => "REAL"
  | double => "DOUBLE"
  | date => "DATE"
  | time => "TIME"
  | timestamp => "TIMESTAMP"
  | blob => "BLOB"
  | other declared => declared

end SqlType

end SchemaDrift
