/-
  SchemaDrift/Join/Basic.lean
  ===========================
  **Joins: undirected relationships between two tables.**

  A join names two tables, its left and its right entity, and the pairs of columns
  that are equal when two rows belong together.  Which entity is the left one carries
  no meaning by itself: `Join.reversed` is the same relationship written from the
  other side.  Everything a join says about one side is a value of `Sides`, so that
  reversing is exchanging, in all parts at once.

  From either side starts a directional relationship, which may have a name.
  `Cardinality` says which of the two are to-many, `DependentKey` whether one of them
  leads to a key that depends on the row it comes from.  Main statement:
  `Join.reversed_reversed`.
-/
import SchemaDrift.Error
import SchemaDrift.Text.Blank
import SchemaDrift.Text.Name

namespace SchemaDrift

/-! ### The two sides -/

/-- One of the two ends of a join. -/
inductive Side where
  | left
  | right
deriving Repr, DecidableEq, Inhabited

namespace Side

def opposite : Side → Side
  | left => right
  | right => left

/-- Both ends, the left one first. -/
def both : List Side := [left, right]

@[simp] theorem opposite_opposite (s : Side) : s.opposite.opposite = s := by cases s <;> rfl

theorem forall_mem_both {P : Side → Prop} : (∀ s ∈ both, P s) ↔ ∀ s, P s := by
  constructor
  · intro h s
    apply h
    cases s <;> decide
  · intro h s _
    exact h s

end Side

/-- Something that a join has once for each side. -/
structure Sides (α : Type) where
  left : α
  right : α
deriving Repr, DecidableEq, Inhabited

namespace Sides

variable {α : Type}

def get (p : Sides α) : Side → α
  | .left => p.left
  | .right => p.right

def swap (p : Sides α) : Sides α := ⟨p.right, p.left⟩

/-- The pair with the part of one side replaced. -/
def set (p : Sides α) (s : Side) (x : α) : Sides α :=
  match s with
  | .left => { p with left := x }
  | .right => { p with right := x }

def toList (p : Sides α) : List α := [p.left, p.right]

@[simp] theorem swap_swap (p : Sides α) : p.swap.swap = p := rfl

@[simp] theorem get_swap (p : Sides α) (s : Side) : p.swap.get s = p.get s.opposite := by
  cases s <;> rfl

theorem mem_toList {p : Sides α} {x : α} : x ∈ p.toList ↔ ∃ s, p.get s = x := by
  constructor
  · intro h
    cases h with
    | head => exact ⟨.left, rfl⟩
    | tail _ hright => exact ⟨.right, (List.mem_singleton.1 hright).symm⟩
  · rintro ⟨s, rfl⟩
    cases s with
    | left => exact List.mem_cons_self
    | right => exact List.mem_cons_of_mem _ List.mem_cons_self

theorem forall_mem_toList {p : Sides α} {P : α → Prop} :
    (∀ x ∈ p.toList, P x) ↔ ∀ s, P (p.get s) := by
  constructor
  · intro h s
    exact h _ (mem_toList.2 ⟨s, rfl⟩)
  · intro h x hx
    obtain ⟨s, rfl⟩ := mem_toList.1 hx
    exact h s

end Sides

/-! ### Conditions -/

/-- Two columns that have to be equal, the left one on the left entity. -/
abbrev ColumnPair := Sides String

/-- The condition of a join over the columns of its entities. -/
inductive Condition where
  | single (pair : ColumnPair)
  /-- Several pairs of columns, in the order in which they were declared. -/
  | composite (pairs : List ColumnPair)
deriving Repr, DecidableEq, Inhabited

namespace Condition

/-- The condition of a list of pairs, which must not be empty. -/
def ofPairs : List ColumnPair → Except SchemaError Condition
  | [] => .error (.configuration .noColumnPairs)
  | [pair] => .ok (.single pair)
  | pairs => .ok (.composite pairs)

def pairs : Condition → List ColumnPair
  | single pair => [pair]
  | composite pairs => pairs

/-- The condition with the two columns of every pair exchanged. -/
def swap : Condition → Condition
  | single pair => single pair.swap
  | composite pairs => composite (pairs.map Sides.swap)

def columns (c : Condition) (s : Side) : List String := c.pairs.map fun pair => pair.get s

/-- Whether the condition is written as a list of pairs. -/
def isComposite : Condition → Bool
  | single _ => false
  | composite _ => true

@[simp] theorem pairs_swap (c : Condition) : c.swap.pairs = c.pairs.map Sides.swap := by
  cases c <;> rfl

@[simp] theorem swap_swap (c : Condition) : c.swap.swap = c := by
  cases c with
  | single pair => rfl
  | composite pairs => simp [swap, Function.comp_def]

theorem pairs_of_ofPairs {ps : List ColumnPair} {c : Condition} (h : ofPairs ps = .ok c) :
    c.pairs = ps := by
  match ps, h with
  | [_], h => cases h; rfl
  | _ :: _ :: _, h => cases h; rfl

end Condition

/-! ### Cardinality and dependence -/

/-- How many rows of the other side a row relates to, read from left to right. -/
inductive Cardinality where
  | oneToOne
  | oneToMany
  | manyToOne
  | manyToMany
deriving Repr, DecidableEq, Inhabited

namespace Cardinality

/-- The cardinality given by what the relationships from either side lead to. -/
def ofFlags (leftToMany rightToMany : Bool) : Cardinality :=
  match leftToMany, rightToMany with
  | false, false => oneToOne
  | true, false => oneToMany
  | false, true => manyToOne
  | true, true => manyToMany

/-- The cardinality read from right to left. -/
def reverse : Cardinality → Cardinality
  | oneToMany => manyToOne
  | manyToOne => oneToMany
  | c => c

/-- Whether the relationship that starts at a side is to-many. -/
def isToMany : Cardinality → Side → Bool
  | oneToOne, _ => false
  | oneToMany, s => s == .left
  | manyToOne, s => s == .right
  | manyToMany, _ => true

/-- The side of which many rows relate to one row of the other. -/
def manySide? : Cardinality → Option Side
  | oneToMany => some .right
  | manyToOne => some .left
  | oneToOne | manyToMany => none

def word : Cardinality → String
  | oneToOne => "ONE_TO_ONE"
  | oneToMany => "ONE_TO_MANY"
  | manyToOne => "MANY_TO_ONE"
  | manyToMany => "MANY_TO_MANY"

def ofWord? : String → Option Cardinality
  | "ONE_TO_ONE" => some oneToOne
  | "ONE_TO_MANY" => some oneToMany
  | "MANY_TO_ONE" => some manyToOne
  | "MANY_TO_MANY" => some manyToMany
  | _ => none

def parse (text : String) : Except SchemaError Cardinality :=
  match ofWord? text with
  | some c => .ok c
  | none => .error (.configuration (.unknownCardinality text))

@[simp] theorem reverse_reverse (c : Cardinality) : c.reverse.reverse = c := by cases c <;> rfl

@[simp] theorem isToMany_reverse (c : Cardinality) (s : Side) :
    c.reverse.isToMany s = c.isToMany s.opposite := by cases c <;> cases s <;> rfl

end Cardinality

/-- The side whose relationship leads to a primary key that depends on the row it starts from. -/
inductive DependentKey where
  | none
  | left
  | right
deriving Repr, DecidableEq, Inhabited

namespace DependentKey

/-- The dependence given by what the relationships from either side lead to; at most one of them
    can lead to a dependent key. -/
def ofFlags (leftToDependent rightToDependent : Bool) : Except SchemaError DependentKey :=
  match leftToDependent, rightToDependent with
  | false, false => .ok none
  | true, false => .ok left
  | false, true => .ok right
  | true, true => .error (.configuration .bothDependent)

/-- The dependence as seen from the other side. -/
def reverse : DependentKey → DependentKey
  | none => none
  | left => right
  | right => left

/-- The side whose relationship leads to the dependent key. -/
def side? : DependentKey → Option Side
  | none => Option.none
  | left => some .left
  | right => some .right

def word : DependentKey → String
  | none => "NONE"
  | left => "LEFT"
  | right => "RIGHT"

def ofWord? : String → Option DependentKey
  | "NONE" => some none
  | "LEFT" => some left
  | "RIGHT" => some right
  | _ => Option.none

def parse (text : String) : Except SchemaError DependentKey :=
  match ofWord? text with
  | some d => .ok d
  | Option.none => .error (.configuration (.unknownDependence text))

@[simp] theorem reverse_reverse (d : DependentKey) : d.reverse.reverse = d := by cases d <;> rfl

end DependentKey

/-! ### Joins -/

/-- An undirected relationship between two tables. -/
structure Join where
  entities : Sides String
  /-- The names of the relationships that start at each side. -/
  names : Sides (Option String)
  /-- Whether a name was made up for want of a declared one; such a name is never saved to a
      join file. -/
  synthesized : Sides Bool := ⟨false, false⟩
  cardinality : Cardinality
  dependentKey : DependentKey
  condition : Condition
deriving Repr, DecidableEq, Inhabited

namespace Join

/-- A join of two tables, whose names must not be blank. -/
def make (entities : Sides String) (names : Sides (Option String)) (cardinality : Cardinality)
    (dependentKey : DependentKey) (condition : Condition) : Except SchemaError Join :=
  if entities.toList.any isBlank then .error (.configuration .blankEndpoint)
  else .ok { entities, names, cardinality, dependentKey, condition }

/-- A join of two tables over a list of column pairs.  A missing pair is reported before a blank
    table name. -/
def ofPairs (entities : Sides String) (names : Sides (Option String)) (cardinality : Cardinality)
    (dependentKey : DependentKey) (pairs : List ColumnPair) : Except SchemaError Join := do
  let condition ← Condition.ofPairs pairs
  make entities names cardinality dependentKey condition

def entity (j : Join) (s : Side) : String := j.entities.get s

/-- The name of the relationship that starts at a side. -/
def name? (j : Join) (s : Side) : Option String := j.names.get s

def isSynthesized (j : Join) (s : Side) : Bool := j.synthesized.get s

/-- The name of a side as far as it was declared. -/
def declaredName? (j : Join) (s : Side) : Option String :=
  if j.isSynthesized s then none else j.name? s

/-- The join with a made-up name on one side. -/
def synthesizeName (j : Join) (s : Side) (name : String) : Join :=
  { j with names := j.names.set s (some name), synthesized := j.synthesized.set s true }

def isToMany (j : Join) (s : Side) : Bool := j.cardinality.isToMany s

def isToDependentKey (j : Join) (s : Side) : Bool := j.dependentKey.side? == some s

def columns (j : Join) (s : Side) : List String := j.condition.columns s

/-- Whether one of the two tables has a name. -/
def touches (j : Join) (table : String) : Bool := namedIn j.entities.toList table

/-- The same relationship written from the other side. -/
def reversed (j : Join) : Join :=
  { entities := j.entities.swap
    names := j.names.swap
    synthesized := j.synthesized.swap
    cardinality := j.cardinality.reverse
    dependentKey := j.dependentKey.reverse
    condition := j.condition.swap }

/-- The text of a join in messages: each pair with the tables of its columns. -/
def display (j : Join) : String :=
  String.intercalate ", " (j.condition.pairs.map fun pair =>
    j.entities.left ++ "." ++ pair.left ++ " > " ++ j.entities.right ++ "." ++ pair.right)

@[simp] theorem reversed_reversed (j : Join) : j.reversed.reversed = j := by
  simp [reversed]

@[simp] theorem entity_reversed (j : Join) (s : Side) : j.reversed.entity s = j.entity s.opposite :=
  Sides.get_swap _ s

end Join

end SchemaDrift
