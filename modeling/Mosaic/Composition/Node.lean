import Mosaic.Json.Form

/-!
# Component nodes

A composition is a JSON value in which some objects stand for components: those
with a non-empty text under `type`. Their `data` says what the component shows.

* `Shape`: what a JSON value is in a composition. Arrays come first, whatever
  they hold; an object is a node or it is nothing special.
* `Node`: a node on its own, with its JSON form.
-/

namespace Mosaic.Composition

/-- The component named by the members of an object, if they make a node. -/
def nodeKind? (members : List (String × Json)) : Option String :=
  match members.lookup "type" with
  | some (.string kind) => if kind = "" then none else some kind
  | _ => none

/-- The data of a node, if the object has any that is itself an object. -/
def nodeData? (members : List (String × Json)) : Option (List (String × Json)) :=
  (members.lookup "data").bind Json.asObject?

/-- What a JSON value is in a composition. -/
inductive Shape
  | sequence (items : List Json)
  | node (kind : String) (data : Option (List (String × Json)))
  | other (value : Json)

namespace Shape

def of : Json → Shape
  | .array items => .sequence items
  | .object members =>
    match nodeKind? members with
    | some kind => .node kind (nodeData? members)
    | none => .other (.object members)
  | value => .other value

def isNode : Shape → Bool
  | .node .. => true
  | _ => false

end Shape

/-- Whether a JSON value is a node. -/
def isNode (value : Json) : Bool := (Shape.of value).isNode

/-- A component and its data. -/
@[ext] structure Node where
  kind : String
  data : Dict Json := ∅

namespace Node

/-- Sets one entry of the data. -/
def set (node : Node) (key : String) (value : Json) : Node :=
  { node with data := node.data.insert key value }

/-- The written form of a node: its fields in their order. -/
def toJson (node : Node) : Json :=
  .object [("type", .string node.kind), ("data", .ofDict node.data)]

/-- The node as a composition, built member by member. -/
def toValue (node : Node) : Json :=
  .ofDict (((∅ : Dict Json).insert "type" (.string node.kind)).insert "data" (.ofDict node.data))

structure Draft where
  kind : Option String := none
  data : Option (Dict Json) := none

/-- A node must have a `type`; its `data` may be missing. -/
def record : Json.Form.Record Draft Node where
  name := "ComponentNode"
  fields := [
    .of "type" .string Draft.kind (fun d v => { d with kind := some v }) false,
    .of "data" (.dict .value) Draft.data (fun d v => { d with data := some v }) true]
  start := {}
  finish draft := do
    return { kind := ← Json.Form.require "type" draft.kind, data := draft.data.getD ∅ }

def form : Json.Form Node := .record record

end Node

end Mosaic.Composition
