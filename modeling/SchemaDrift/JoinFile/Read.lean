/-
  SchemaDrift/JoinFile/Read.lean
  ==============================
  **Reading joins from a file.**

  The tags of a file are gone through in order.  A `join` tag starts a draft, which the
  tags `left`, `right` and `column-pair` fill, wherever they stand, and which becomes a
  join at the closing tag; in the older form `db-relationship` and `db-attribute-pair`
  do the same for one direction of a relationship.  Tags that belong to nothing that is
  open are passed over, with their attributes unread, and so are unknown ones.  A join
  that is open at the end of the file is not there; one that is closed and incomplete
  fails the whole reading.  The joins made of single directions come last.
-/
import SchemaDrift.Join.Draft
import SchemaDrift.JoinFile.Directed
import SchemaDrift.Markup.Attribute

namespace SchemaDrift

namespace JoinFile

open Markup

/-- How far a file has been read. -/
structure Reading where
  joins : List Join := []
  directions : List Directed := []
  /-- The join that is open. -/
  draft : Option Draft := none
  /-- The single direction that is open. -/
  direction : Option Directed := none
deriving Repr, DecidableEq

/-- The attributes in the text of a tag. -/
def readAttributes (rest : List Char) : Except SchemaError Attributes :=
  match attributes? rest with
  | some attributes => .ok attributes
  | none => .error .markup

/-- An attribute that an element must have. -/
def requireAttribute (element key : String) (attributes : Attributes) : Except SchemaError String :=
  match attributes.lookup key with
  | some value => .ok value
  | none => .error (.configuration (.missingAttribute element key))

/-- A truth value, which is false when it is not given. -/
def flagAttribute (key : String) (attributes : Attributes) : Except SchemaError Bool :=
  match attributes.lookup key with
  | none => .ok false
  | some "false" => .ok false
  | some "true" => .ok true
  | some text => .error (.configuration (.badFlag key text))

namespace Reading

def openJoin (r : Reading) (rest : List Char) : Except SchemaError Reading := do
  let attributes ← readAttributes rest
  let cardinality ← (attributes.lookup "toMany").mapM Cardinality.parse
  let dependentKey ← (attributes.lookup "toDependentPK").mapM DependentKey.parse
  return { r with draft := some { cardinality, dependentKey } }

/-- Reads an endpoint of the open join.  An endpoint that is given again replaces the table, and
    the name only if it brings one. -/
def openEndpoint (r : Reading) (s : Side) (rest : List Char) : Except SchemaError Reading := do
  match r.draft with
  | none => return r
  | some draft =>
    let attributes ← readAttributes rest
    let element := match s with
      | .left => "left"
      | .right => "right"
    let entity ← requireAttribute element "entity" attributes
    let name := attributes.lookup "name"
    let draft := match s with
      | .left => { draft with left := some entity, leftName := name.or draft.leftName }
      | .right => { draft with right := some entity, rightName := name.or draft.rightName }
    return { r with draft := some draft }

def openPair (r : Reading) (rest : List Char) : Except SchemaError Reading := do
  match r.draft with
  | none => return r
  | some draft =>
    let attributes ← readAttributes rest
    let left ← requireAttribute "column-pair" "left" attributes
    let right ← requireAttribute "column-pair" "right" attributes
    return { r with draft := some { draft with pairs := draft.pairs ++ [⟨left, right⟩] } }

def openDirection (r : Reading) (rest : List Char) : Except SchemaError Reading := do
  let attributes ← readAttributes rest
  let source ← requireAttribute "db-relationship" "source" attributes
  let target ← requireAttribute "db-relationship" "target" attributes
  let toMany ← flagAttribute "toMany" attributes
  let toDependentKey ← flagAttribute "toDependentPK" attributes
  let name := attributes.lookup "name"
  return { r with direction := some { source, target, name, toMany, toDependentKey } }

def openDirectedPair (r : Reading) (rest : List Char) : Except SchemaError Reading := do
  match r.direction with
  | none => return r
  | some direction =>
    let attributes ← readAttributes rest
    let source ← requireAttribute "db-attribute-pair" "source" attributes
    let target ← requireAttribute "db-attribute-pair" "target" attributes
    return { r with
      direction := some { direction with pairs := direction.pairs ++ [⟨source, target⟩] } }

def openTag (r : Reading) (name : String) (rest : List Char) : Except SchemaError Reading :=
  match name with
  | "join" => r.openJoin rest
  | "left" => r.openEndpoint .left rest
  | "right" => r.openEndpoint .right rest
  | "column-pair" => r.openPair rest
  | "db-relationship" => r.openDirection rest
  | "db-attribute-pair" => r.openDirectedPair rest
  | _ => .ok r

def closeTag (r : Reading) (name : String) : Except SchemaError Reading :=
  match name, r.draft, r.direction with
  | "join", some draft, _ =>
    draft.finish.map fun join => { r with joins := r.joins ++ [join], draft := none }
  | "db-relationship", _, some direction =>
    .ok { r with directions := r.directions ++ [direction], direction := none }
  | _, _, _ => .ok r

def step (r : Reading) : Token → Except SchemaError Reading
  | .opening name rest closed => do
    let name := String.ofList name
    let r ← r.openTag name rest
    if closed then r.closeTag name else return r
  | .closing name => r.closeTag (String.ofList name)
  | .malformed => .error .markup

/-- The joins of a file that is read to its end. -/
def finish (r : Reading) : Except SchemaError (List Join) :=
  (Directed.toJoins r.directions).map (r.joins ++ ·)

end Reading

/-- The joins in the text of a join file. -/
def read (text : String) : Except SchemaError (List Join) := do
  let reading ← (checkNesting [] (tokens text)).foldlM Reading.step {}
  reading.finish

end JoinFile

end SchemaDrift
