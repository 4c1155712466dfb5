/-
  SchemaDrift/Json/Write.lean
  ===========================
  **Writing JSON.**

  One writer serves both layouts: `Layout.pretty`, the form in which a model is saved
  (two spaces a level, a space after the colon, empty lists and objects on one line),
  and `Layout.compact`, which holds no white space.  In a string only the quotation
  mark, the backslash and the control characters below the space are escaped; all
  other characters are written as they are.
-/
import SchemaDrift.Json.Value
import SchemaDrift.Text.Hex

namespace SchemaDrift

/-- What a writer puts before each item, and between a key and its value. -/
structure Json.Layout where
  line : Nat → List Char
  colon : List Char

/-- One item a line, indented by two spaces a level. -/
def Json.Layout.pretty : Json.Layout :=
  ⟨fun depth => '\n' :: List.replicate (2 * depth) ' ', [':', ' ']⟩

def Json.Layout.compact : Json.Layout := ⟨fun _ => [], [':']⟩

namespace Json

/-- One character as it stands inside a JSON string. -/
def escapeChar (c : Char) : List Char :=
  if c = '"' then ['\\', '"']
  else if c = '\\' then ['\\', '\\']
  else if c = '\n' then ['\\', 'n']
  else if c = '\r' then ['\\', 'r']
  else if c = '\t' then ['\\', 't']
  else if c = '\x08' then ['\\', 'b']
  else if c = '\x0c' then ['\\', 'f']
  else if c.toNat < 0x20 then
    ['\\', 'u', '0', '0', hexDigit (c.toNat / 16), hexDigit (c.toNat % 16)]
  else [c]

/-- A text between quotation marks. -/
def writeString (text : String) : List Char :=
  '"' :: (text.toList.flatMap escapeChar ++ ['"'])

mutual

def writeAt (layout : Layout) (depth : Nat) : Json → List Char
  | .null => "null".toList
  | .bool true => "true".toList
  | .bool false => "false".toList
  | .number numeral => numeral.toList
  | .string text => writeString text
  | .list [] => ['[', ']']
  | .list (item :: items) =>
    '[' :: (layout.line (depth + 1) ++ writeAt layout (depth + 1) item ++
      writeItems layout (depth + 1) items ++ layout.line depth ++ [']'])
  | .object [] => ['\x7b', '\x7d']
  | .object ((key, value) :: fields) =>
    '\x7b' :: (layout.line (depth + 1) ++ writeString key ++ layout.colon ++
      writeAt layout (depth + 1) value ++ writeFields layout (depth + 1) fields ++
      layout.line depth ++ ['\x7d'])
  | .unreadable => "\"\\ud800\"".toList

def writeItems (layout : Layout) (depth : Nat) : List Json → List Char
  | [] => []
  | item :: items =>
    ',' :: (layout.line depth ++ writeAt layout depth item ++ writeItems layout depth items)

def writeFields (layout : Layout) (depth : Nat) : List (String × Json) → List Char
  | [] => []
  | (key, value) :: fields =>
    ',' :: (layout.line depth ++ writeString key ++ layout.colon ++ writeAt layout depth value ++
      writeFields layout depth fields)

end

def write (layout : Layout) (value : Json) : String := String.ofList (writeAt layout 0 value)

/-- The form in which files are saved. -/
def pretty (value : Json) : String := write .pretty value

def compact (value : Json) : String := write .compact value

end Json

end SchemaDrift
