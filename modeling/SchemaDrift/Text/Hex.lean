/-
  SchemaDrift/Text/Hex.lean
  =========================
  **Hexadecimal numerals**, as they stand in the escapes of JSON, markup and patterns.

  Digits are read in either case and written in lower case.
-/

namespace SchemaDrift

/-- The lower-case hexadecimal digit of a number below sixteen. -/
def hexDigit (d : Nat) : Char := if d < 10 then Char.ofNat (48 + d) else Char.ofNat (87 + d)

/-- The value of a hexadecimal digit, in either case. -/
def hexValue? (c : Char) : Option Nat :=
  if c.isDigit then some (c.toNat - 48)
  else if 'a' ≤ c && c ≤ 'f' then some (c.toNat - 87)
  else if 'A' ≤ c && c ≤ 'F' then some (c.toNat - 55)
  else none

/-- The number that hexadecimal digits denote, most significant first. -/
def hexDigitsValue (values : List Nat) : Nat := values.foldl (fun n d => 16 * n + d) 0

/-- Reads a text of one or more hexadecimal digits and nothing else. -/
def readHex (cs : List Char) : Option Nat :=
  if cs.isEmpty then none else (cs.mapM hexValue?).map hexDigitsValue

end SchemaDrift
