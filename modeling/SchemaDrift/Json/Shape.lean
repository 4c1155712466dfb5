/-
  SchemaDrift/Json/Shape.lean
  ===========================
  **The shapes in which values are written as JSON.**

  A record is written as an object of its fields; it may also be given as the list of
  its fields in their order, and keys that are no fields are passed over.  `Json.record`
  finds the fields of either form: for each name the value that was given, or nothing.
  A field that may be missing is decoded with `withDefault`.

  A tagged value is written as an object with the tag as its only key, or, where the
  tag carries nothing, as the tag alone.  Decoders say no by giving nothing; which part
  of a text was at fault is not told.
-/
import SchemaDrift.Json.Value

namespace SchemaDrift

namespace Json

/-! ### Simple values -/

def asString? : Json → Option String
  | .string text => some text
  | _ => none

def asBool? : Json → Option Bool
  | .bool value => some value
  | _ => none

/-- A whole number below a bound; signs, fractions and exponents are refused. -/
def asNat? (bound : Nat) : Json → Option Nat
  | .number numeral => (readDecimal numeral.toList).filter (· < bound)
  | _ => none

/-- A value that may be `null`. -/
def nullable {α : Type} (decode : Json → Option α) : Json → Option (Option α)
  | .null => some none
  | value => (decode value).map some

def asList? {α : Type} (decode : Json → Option α) : Json → Option (List α)
  | .list items => items.mapM decode
  | _ => none

/-- A list of exactly two values. -/
def asPair? {α β : Type} (first : Json → Option α) (second : Json → Option β) :
    Json → Option (α × β)
  | .list [a, b] => do return (← first a, ← second b)
  | _ => none

/-! ### Records -/

/-- The value of a key, if it is given at most once: nothing inside when it is not given. -/
def lookupOnce (fields : List (String × Json)) (key : String) : Option (Option Json) :=
  match fields.filter fun field => field.1 == key with
  | [] => some none
  | [field] => some (some field.2)
  | _ => none

/-- The fields of a record by position; further items are refused. -/
def positional : List String → List Json → Option (List (Option Json))
  | [], [] => some []
  | [], _ :: _ => none
  | _ :: names, [] => (positional names []).map (none :: ·)
  | _ :: names, item :: items => (positional names items).map (some item :: ·)

/-- The fields of a record, given the names of its fields in order. -/
def record (names : List String) : Json → Option (List (Option Json))
  | .object fields => names.mapM (lookupOnce fields)
  | .list items => positional names items
  | _ => none

/-- A field that has to be given. -/
def required {α : Type} (decode : Json → Option α) (field : Option Json) : Option α :=
  field.bind decode

/-- A field that may be missing. -/
def withDefault {α : Type} (fallback : α) (decode : Json → Option α) (field : Option Json) :
    Option α :=
  match field with
  | some value => decode value
  | none => some fallback

/-! ### Tagged values -/

/-- The tag and the payload of a tagged value; a tag alone carries `null`. -/
inductive Tagged where
  | alone (tag : String)
  | carrying (tag : String) (payload : Json)
deriving Repr

/-- The tag of a value. -/
def asTagged? : Json → Option Tagged
  | .string tag => some (.alone tag)
  | .object [(tag, payload)] => some (.carrying tag payload)
  | _ => none

/-- The tag of a value that carries nothing. -/
def asWord? (value : Json) : Option String :=
  match asTagged? value with
  | some (.alone tag) => some tag
  | some (.carrying tag .null) => some tag
  | _ => none

end Json

end SchemaDrift
