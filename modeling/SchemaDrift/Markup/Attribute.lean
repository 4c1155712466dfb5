/-
  SchemaDrift/Markup/Attribute.lean
  =================================
  **Attributes of tags, and the escapes in their values.**

  A value is written between quotation marks, with the five characters that markup
  uses replaced by entities.  It is read with these entities and with references to
  characters by number; nothing else may follow an ampersand, and white space is kept
  as it is.  Main statement: `unescape_escape`, every text reads back.
-/
import SchemaDrift.Markup.Token
import SchemaDrift.Text.Decimal

namespace SchemaDrift

namespace Markup

/-! ### Escapes -/

/-- A character as it stands in the value of an attribute. -/
def escapeChar (c : Char) : List Char :=
  if c = '<' then "&lt;".toList
  else if c = '>' then "&gt;".toList
  else if c = '&' then "&amp;".toList
  else if c = '\'' then "&apos;".toList
  else if c = '"' then "&quot;".toList
  else [c]

/-- A text as it stands in the value of an attribute. -/
def escape (cs : List Char) : List Char := cs.flatMap escapeChar

/-- The character of a number: not zero, not a surrogate, and within the range of characters. -/
def charOfNumber? (n : Nat) : Option Char :=
  if n ≠ 0 && decide n.isValidChar then some (Char.ofNat n) else none

/-- The character that an entity stands for, given what is between the ampersand and the
    semicolon. -/
def entity? (name : List Char) : Option Char :=
  match name with
  | '#' :: 'x' :: digits => (readHex digits).bind charOfNumber?
  | '#' :: digits => (readDecimal digits).bind charOfNumber?
  | _ =>
    if name = "lt".toList then some '<'
    else if name = "gt".toList then some '>'
    else if name = "amp".toList then some '&'
    else if name = "apos".toList then some '\''
    else if name = "quot".toList then some '"'
    else none

/-- Reads a value.  Inside an entity the characters met so far are kept, last one first. -/
def unescapeFrom : Option (List Char) → List Char → Option (List Char)
  | none, [] => some []
  | none, c :: cs =>
    if c = '&' then unescapeFrom (some []) cs else (unescapeFrom none cs).map (c :: ·)
  | some _, [] => none
  | some name, c :: cs =>
    if c = ';' then
      (entity? name.reverse).bind fun e => (unescapeFrom none cs).map (e :: ·)
    else if c = '&' then none
    else unescapeFrom (some (c :: name)) cs

def unescape (cs : List Char) : Option (List Char) := unescapeFrom none cs

theorem unescapeFrom_escapeChar (c : Char) (cs : List Char) :
    unescapeFrom none (escapeChar c ++ cs) = (unescapeFrom none cs).map (c :: ·) := by
  unfold escapeChar
  split
  next h => subst h; simp [unescapeFrom, entity?]
  split
  next h => subst h; simp [unescapeFrom, entity?]
  split
  next h => subst h; simp [unescapeFrom, entity?]
  split
  next h => subst h; simp [unescapeFrom, entity?]
  split
  next h => subst h; simp [unescapeFrom, entity?]
  next h _ _ => simp [unescapeFrom, h]

theorem unescape_escape (cs : List Char) : unescape (escape cs) = some cs := by
  induction cs with
  | nil => rfl
  | cons c cs ih =>
    have h : escape (c :: cs) = escapeChar c ++ escape cs := by simp [escape]
    rw [unescape, h, unescapeFrom_escapeChar, show unescapeFrom none (escape cs) = some cs from ih]
    rfl

/-! ### Attributes -/

/-- The attributes of a tag: keys with their values. -/
abbrev Attributes := List (String × String)

/-- One attribute, and the text behind it.  The key has at least one character and ends at an
    equals sign or at white space; the value stands between quotation marks of one kind. -/
def scanAttribute (first : Char) (cs : List Char) :
    Option ((List Char × List Char) × List Char) :=
  let endsKey (c : Char) := c == '=' || isSpace c
  let key := first :: cs.takeWhile (!endsKey ·)
  match skipSpace (cs.dropWhile (!endsKey ·)) with
  | '=' :: rest =>
    match skipSpace rest with
    | quote :: rest =>
      if quote == '"' || quote == '\'' then
        match rest.dropWhile (· ≠ quote) with
        | _ :: behind => some ((key, rest.takeWhile (· ≠ quote)), behind)
        | [] => none
      else none
    | [] => none
  | _ => none

/-- The attributes in the text of a tag behind its name.  A key that comes again is an error. -/
def attributesWith : Nat → Attributes → List Char → Option Attributes
  | 0, found, _ => some found
  | fuel + 1, found, cs =>
    match skipSpace cs with
    | [] => some found
    | c :: cs => do
      let ((key, value), rest) ← scanAttribute c cs
      if (found.lookup (String.ofList key)).isSome then none
      else
        let text ← unescape value
        attributesWith fuel (found ++ [(String.ofList key, String.ofList text)]) rest

/-- The attributes in the text of a tag behind its name.  Each attribute takes at least one
    character, so the length of the text bounds their number. -/
def attributes? (cs : List Char) : Option Attributes := attributesWith (cs.length + 1) [] cs

/-! ### Writing tags -/

/-- An attribute, with the space before it. -/
def attributeText (key value : String) : String :=
  " " ++ key ++ "=\"" ++ String.ofList (escape value.toList) ++ "\""

def attributesText (attributes : Attributes) : String :=
  String.join (attributes.map fun (key, value) => attributeText key value)

def openingText (name : String) (attributes : Attributes) : String :=
  "<" ++ name ++ attributesText attributes ++ ">"

def closedText (name : String) (attributes : Attributes) : String :=
  "<" ++ name ++ attributesText attributes ++ "/>"

def closingText (name : String) : String := "</" ++ name ++ ">"

end Markup

end SchemaDrift
