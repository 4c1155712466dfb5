/-
  SchemaDrift/Text/Blank.lean
  ===========================
  **White space at the ends of a text.**

  Declared column types are read without the white space around them, and an
  endpoint of a join may not be blank.  White space is the `White_Space` property
  of Unicode: the ASCII controls from tab to carriage return, the space, and the
  wider spaces and separators beyond ASCII.
-/

namespace SchemaDrift

/-- The characters with the Unicode property `White_Space`. -/
def isBlankChar (c : Char) : Bool :=
  let n := c.toNat
  (9 ≤ n && n ≤ 13) || n == 0x20 || n == 0x85 || n == 0xA0 || n == 0x1680 ||
    (0x2000 ≤ n && n ≤ 0x200A) || n == 0x2028 || n == 0x2029 || n == 0x202F || n == 0x205F ||
    n == 0x3000

def trimBlank (cs : List Char) : List Char :=
  ((cs.dropWhile isBlankChar).reverse.dropWhile isBlankChar).reverse

/-- A text is blank when it holds white space only; the empty text is blank. -/
def isBlank (text : String) : Bool := text.toList.all isBlankChar

end SchemaDrift
