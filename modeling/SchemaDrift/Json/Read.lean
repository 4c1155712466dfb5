/-
  SchemaDrift/Json/Read.lean
  ==========================
  **Reading JSON, strictly.**

  `Json.read` takes a whole text and accepts exactly one value, with white space
  around it: no comments, no trailing commas, no leading zeros, no raw control
  characters in strings, nothing after the value.  A string is read in two steps.
  `scanString` finds its end and takes its escapes apart; `assemble` joins the
  sixteen-bit units of `\u` escapes to characters, and fails on a surrogate without
  its partner.  Such a string is valid JSON all the same, so the failure does not
  end the reading but leaves the value `unreadable`.
-/
import SchemaDrift.Json.Value
import SchemaDrift.Text.Hex

namespace SchemaDrift

namespace Json

/-- The four characters that may stand between the parts of a JSON text. -/
def isSpace (c : Char) : Bool := c == ' ' || c == '\n' || c == '\t' || c == '\r'

def skipSpace (cs : List Char) : List Char := cs.dropWhile isSpace

/-! ### Strings -/

/-- A piece of a string literal: a character, or the unit of a `\u` escape. -/
inductive Piece where
  | char (c : Char)
  | escaped (codeUnit : Nat)
deriving Repr, DecidableEq

/-- The unit that four hexadecimal digits name. -/
def unitOf? (a b c d : Char) : Option Nat := readHex [a, b, c, d]

/-- The character of a one-letter escape. -/
def simpleEscape? : Char → Option Char
  | '"' => some '"'
  | '\\' => some '\\'
  | '/' => some '/'
  | 'b' => some '\x08'
  | 'f' => some '\x0c'
  | 'n' => some '\n'
  | 'r' => some '\r'
  | 't' => some '\t'
  | _ => none

/-- The pieces of a string literal, from behind its opening quotation mark to its closing one,
    and the text after it. -/
def scanString : List Char → Option (List Piece × List Char)
  | [] => none
  | '"' :: rest => some ([], rest)
  | '\\' :: 'u' :: a :: b :: c :: d :: rest => do
    let codeUnit ← unitOf? a b c d
    let (pieces, rest) ← scanString rest
    return (.escaped codeUnit :: pieces, rest)
  | '\\' :: e :: rest => do
    let c ← simpleEscape? e
    let (pieces, rest) ← scanString rest
    return (.char c :: pieces, rest)
  | c :: rest =>
    if c.toNat < 0x20 || c == '\\' then none
    else do
      let (pieces, rest) ← scanString rest
      return (.char c :: pieces, rest)

def isHighSurrogate (u : Nat) : Bool := 0xD800 ≤ u && u < 0xDC00

def isLowSurrogate (u : Nat) : Bool := 0xDC00 ≤ u && u < 0xE000

/-- The characters that the pieces of a string denote; none when a surrogate stands alone. -/
def assemble : List Piece → Option (List Char)
  | [] => some []
  | .char c :: pieces => (assemble pieces).map (c :: ·)
  | .escaped high :: .escaped low :: pieces =>
    if isHighSurrogate high then
      if isLowSurrogate low then
        (assemble pieces).map
          (Char.ofNat (0x10000 + (high - 0xD800) * 0x400 + (low - 0xDC00)) :: ·)
      else none
    else if isLowSurrogate high then none
    else (assemble (.escaped low :: pieces)).map (Char.ofNat high :: ·)
  | .escaped u :: pieces =>
    if isHighSurrogate u || isLowSurrogate u then none
    else (assemble pieces).map (Char.ofNat u :: ·)

/-- A string literal from behind its opening quotation mark: its text, if it has one, and what
    follows. -/
def readString (cs : List Char) : Option (Option String × List Char) := do
  let (pieces, rest) ← scanString cs
  return ((assemble pieces).map String.ofList, rest)

/-! ### Numerals -/

def scanDigits (cs : List Char) : Option (List Char × List Char) :=
  match cs.span Char.isDigit with
  | ([], _) => none
  | (digits, rest) => some (digits, rest)

/-- The whole part of a numeral: a zero alone, or digits that do not begin with one. -/
def scanWhole : List Char → Option (List Char × List Char)
  | '0' :: rest => some (['0'], rest)
  | cs => scanDigits cs

/-- The fraction of a numeral, which may be absent. -/
def scanFraction : List Char → Option (List Char × List Char)
  | '.' :: rest => do
    let (digits, rest) ← scanDigits rest
    return ('.' :: digits, rest)
  | cs => some ([], cs)

/-- The exponent of a numeral, which may be absent. -/
def scanExponent : List Char → Option (List Char × List Char)
  | c :: cs =>
    if c == 'e' || c == 'E' then
      match cs with
      | s :: rest =>
        if s == '+' || s == '-' then do
          let (digits, rest) ← scanDigits rest
          return (c :: s :: digits, rest)
        else do
          let (digits, rest) ← scanDigits cs
          return (c :: digits, rest)
      | [] => none
    else some ([], c :: cs)
  | [] => some ([], [])

def scanNumber (cs : List Char) : Option (List Char × List Char) := do
  let (sign, cs) := match cs with
    | '-' :: rest => (['-'], rest)
    | _ => ([], cs)
  let (whole, cs) ← scanWhole cs
  let (fraction, cs) ← scanFraction cs
  let (exponent, cs) ← scanExponent cs
  return (sign ++ whole ++ fraction ++ exponent, cs)

/-! ### Values -/

/-- Drops a word that the text has to begin with. -/
def dropWord : List Char → List Char → Option (List Char)
  | [], cs => some cs
  | _ :: _, [] => none
  | w :: word, c :: cs => if w == c then dropWord word cs else none

/-- The object of the fields read, if every key is a text. -/
def ofFields (fields : List (Option String × Json)) : Json :=
  match fields.mapM fun (key, value) => key.map (·, value) with
  | some fields => .object fields
  | none => .unreadable

mutual

/-- A value, after any white space, and the text that follows it. -/
def readValue : Nat → List Char → Option (Json × List Char)
  | 0, _ => none
  | fuel + 1, cs =>
    match skipSpace cs with
    | 'n' :: rest => (dropWord "ull".toList rest).map (.null, ·)
    | 't' :: rest => (dropWord "rue".toList rest).map (.bool true, ·)
    | 'f' :: rest => (dropWord "alse".toList rest).map (.bool false, ·)
    | '"' :: rest => (readString rest).map fun (text, rest) =>
      ((text.map Json.string).getD .unreadable, rest)
    | '[' :: rest =>
      match skipSpace rest with
      | ']' :: rest => some (.list [], rest)
      | rest => (readItems fuel rest).map fun (items, rest) => (.list items, rest)
    | '\x7b' :: rest =>
      match skipSpace rest with
      | '\x7d' :: rest => some (.object [], rest)
      | rest => (readFields fuel rest).map fun (fields, rest) => (ofFields fields, rest)
    | cs => (scanNumber cs).map fun (numeral, rest) => (.number (String.ofList numeral), rest)

/-- The items of a list that is not empty, up to its closing bracket. -/
def readItems : Nat → List Char → Option (List Json × List Char)
  | 0, _ => none
  | fuel + 1, cs => do
    let (item, rest) ← readValue fuel cs
    match skipSpace rest with
    | ',' :: rest =>
      let (items, rest) ← readItems fuel rest
      return (item :: items, rest)
    | ']' :: rest => return ([item], rest)
    | _ => none

/-- The fields of an object that is not empty, up to its closing brace. -/
def readFields : Nat → List Char → Option (List (Option String × Json) × List Char)
  | 0, _ => none
  | fuel + 1, cs =>
    match skipSpace cs with
    | '"' :: rest => do
      let (key, rest) ← readString rest
      match skipSpace rest with
      | ':' :: rest =>
        let (value, rest) ← readValue fuel rest
        match skipSpace rest with
        | ',' :: rest =>
          let (fields, rest) ← readFields fuel rest
          return ((key, value) :: fields, rest)
        | '\x7d' :: rest => return ([(key, value)], rest)
        | _ => none
      | _ => none
    | _ => none

end

/-- Reads a text that holds one value.  Every step into an item or a value consumes a character
    or follows one that did, so twice the length of the text bounds the depth. -/
def read (text : String) : Option Json := do
  let cs := text.toList
  let (value, rest) ← readValue (2 * cs.length + 2) cs
  if (skipSpace rest).isEmpty then some value else none

end Json

end SchemaDrift
