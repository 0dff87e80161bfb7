import Mosaic.Composition.Node
import Mosaic.Json.Reader
import Mosaic.Log
import Mosaic.Registry.Schema
import Mosaic.Render.UnitMap

/-!
# Rendering compositions

A sequence renders as a row of its elements. A node renders its data first: every
value there that is a node itself, and every node among the direct elements of an
array, is rendered in place, and everything else is passed on untouched. Then the
unit registered for its type is invoked, unless a field that its schema requires
is missing. What cannot be rendered leaves a placeholder and nothing else changes.

* `Renderer.renderValue`: the tree of a value, with a trace of `Step`s, one for
  each node in the order in which they were dealt with.
* `Renderer.render`: the same from a value or from text.
-/

namespace Mosaic.Render

open Mosaic.Composition Mosaic.Registry

/-- What became of a node. -/
inductive Step
  | invoked (component : String) (sink : EventSink) (events : List Event)
  | missingField (component field : String)
  | unregistered (component : String)

namespace Step

/-- The log event of a step, if it is worth one. -/
def logEvent? : Step → Option Log.Event
  | .invoked .. => none
  | .missingField component field =>
    some ⟨.warn, "missing required field", [("component", component), ("field", field)]⟩
  | .unregistered component =>
    some ⟨.debug, "no unit registered", [("component", component)]⟩

/-- What consumers hear of a step. -/
def delivered : Step → List (Nat × Event)
  | .invoked _ sink events => events.flatMap sink.deliver
  | _ => []

end Step

/-- A computation that deals with nodes on its way. -/
abbrev Steps := Traced Step

structure Renderer (α : Type) where
  units : UnitMap α
  sink : EventSink := .disconnected
  schemas : Option SchemaStore := none

namespace Renderer

variable {α : Type}

def withOverrides (r : Renderer α) (overrides : UnitMap α) : Renderer α :=
  { r with units := r.units.merge overrides }

def withSink (r : Renderer α) (sink : EventSink) : Renderer α := { r with sink }

def withSchemas (r : Renderer α) (schemas : SchemaStore) : Renderer α :=
  { r with schemas := some schemas }

/-- The first required field of a component that its props lack. -/
def firstMissing (r : Renderer α) (kind : String) (props : Props α) : Option String :=
  (r.schemas.bind (·.get? kind)).bind
    (·.firstMissing fun name => (props.map Prod.fst).contains name)

/-- Renders a node whose data has been processed: validation, then dispatch. -/
def settle (r : Renderer α) (kind : String) (props : Props α) : Steps (Rendered α) :=
  match r.firstMissing kind props with
  | some field => do
    .record (.missingField kind field)
    pure (.placeholder (.missingField kind field))
  | none =>
    match r.units.get? kind with
    | some unit => do
      let outcome := unit props r.sink
      .record (.invoked kind r.sink outcome.events)
      pure (.unit kind outcome.output)
    | none => do
      .record (.unregistered kind)
      pure (.placeholder (.unknown kind))

mutual

/-- Renders a value below the top of a composition. -/
def item (r : Renderer α) : Json → Steps (Rendered α)
  | .array items => do
    let children ← r.itemList items
    pure (.row .row children)
  | .object members =>
    match nodeKind? members with
    | some kind => do
      let props ← r.nodeProps members
      r.settle kind props
    | none => pure (.placeholder (.notANode .object))
  | value => pure (.placeholder (.notANode value.kind))

def itemList (r : Renderer α) : List Json → Steps (List (Rendered α))
  | [] => pure []
  | value :: rest => do
    let first ← r.item value
    let others ← r.itemList rest
    pure (first :: others)

/-- The props of a node, from the members of its object: the first `data` counts. -/
def nodeProps (r : Renderer α) : List (String × Json) → Steps (Props α)
  | [] => pure []
  | (key, value) :: rest =>
    if key = "data" then
      match value with
      | .object entries => r.props entries
      | _ => pure []
    else r.nodeProps rest

def props (r : Renderer α) : List (String × Json) → Steps (Props α)
  | [] => pure []
  | (key, value) :: rest => do
    let first ← r.prop value
    let others ← r.props rest
    pure ((key, first) :: others)

/-- Processes one value of a node's data. -/
def prop (r : Renderer α) : Json → Steps (PropValue α)
  | .array items =>
    if items.any isNode then do
      let elements ← r.propItems items
      pure (.list elements)
    else pure (.value (.array items))
  | .object members =>
    match nodeKind? members with
    | some kind => do
      let props ← r.nodeProps members
      let tree ← r.settle kind props
      pure (.component tree)
    | none => pure (.value (.object members))
  | value => pure (.value value)

/-- Processes the elements of an array that has a node among them. -/
def propItems (r : Renderer α) : List Json → Steps (List (PropValue α))
  | [] => pure []
  | value :: rest => do
    let first ← r.propItem value
    let others ← r.propItems rest
    pure (first :: others)

def propItem (r : Renderer α) : Json → Steps (PropValue α)
  | .object members =>
    match nodeKind? members with
    | some kind => do
      let props ← r.nodeProps members
      let tree ← r.settle kind props
      pure (.component tree)
    | none => pure (.value (.object members))
  | value => pure (.value value)

end

/-- Renders a whole composition. A sequence at the top is stacked. -/
def renderValue (r : Renderer α) : Json → Steps (Rendered α)
  | .array items => do
    let children ← r.itemList items
    pure (.row .stack children)
  | value => r.item value

end Renderer

/-- A composition as it comes in. -/
inductive Input
  | text (content : String)
  | value (value : Json)

/-- Text that is not JSON cannot be rendered. -/
structure Malformed where
  error : Json.Error

def Malformed.message (m : Malformed) : String :=
  s!"malformed composition input: {m.error.message}"

def Input.value? : Input → Except Malformed Json
  | .text content => (Json.parse content).mapError Malformed.mk
  | .value v => .ok v

def Renderer.render {α : Type} (r : Renderer α) (input : Input) :
    Except Malformed (Steps (Rendered α)) :=
  input.value?.map r.renderValue

end Mosaic.Render
