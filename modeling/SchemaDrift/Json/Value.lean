/-
  SchemaDrift/Json/Value.lean
  ===========================
  **JSON values as they stand in a file.**

  A value keeps what a decoder may ask about and nothing more.  A numeral stays the
  text it was written as, since `1`, `1.0` and `-0` are different inputs for a field
  that wants a whole number; the fields of an object stay in order with their
  repetitions, since a field given twice is refused where it is used and passed over
  where it is not.  `unreadable` stands for valid JSON that no text can represent: a
  string whose escapes name a surrogate without its partner, or an object with such a
  key.  It may occur in a place that nobody reads.
-/
import SchemaDrift.Text.Decimal

namespace SchemaDrift

/-- A JSON value. -/
inductive Json where
  | null
  | bool (value : Bool)
  | number (numeral : String)
  | string (text : String)
  | list (items : List Json)
  | object (fields : List (String × Json))
  | unreadable
deriving Repr, BEq, Inhabited

namespace Json

def nat (n : Nat) : Json := .number (decimal n)

/-- A text, or `null` where there is none. -/
def optionalString : Option String → Json
  | none => .null
  | some text => .string text

def strings (texts : List String) : Json := .list (texts.map .string)

/-- A list of values of one kind. -/
def array {α : Type} (encode : α → Json) (items : List α) : Json := .list (items.map encode)

/-- An object with one field, the form in which a tagged value is written. -/
def tagged (tag : String) (payload : Json) : Json := .object [(tag, payload)]

end Json

end SchemaDrift
