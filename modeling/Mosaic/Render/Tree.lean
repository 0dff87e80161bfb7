import Mosaic.Json.Value

/-!
# Rendered trees

The result of rendering a composition: rows of children, the outputs of units,
and placeholders where a unit could not be used. `α` is the type of outputs.
-/

namespace Mosaic.Render

/-- How the children of a row are arranged: one below the other at the top of a
composition, side by side anywhere else. -/
inductive Layout
  | stack
  | row
  deriving DecidableEq, Repr

/-- Stands for a part of a composition that could not be rendered. -/
inductive Placeholder
  | unknown (component : String)
  | missingField (component field : String)
  | notANode (found : Json.Kind)
  deriving DecidableEq, Repr

def Placeholder.text : Placeholder → String
  | .unknown component => s!"Unknown: {component}"
  | .missingField component field => s!"Error: Missing required data for {component} ({field})"
  | .notANode found => s!"Error: Expected a component, found {found.name}"

inductive Rendered (α : Type)
  | row (layout : Layout) (children : List (Rendered α))
  | unit (component : String) (output : α)
  | placeholder (placeholder : Placeholder)
  deriving Inhabited

/-- What a unit is given under one key of a node's data: a plain value, or rendered
components in place of the nodes. -/
inductive PropValue (α : Type)
  | value (value : Json)
  | component (tree : Rendered α)
  | list (items : List (PropValue α))
  deriving Inhabited

/-- The processed data of a node, in the order of the data. -/
abbrev Props (α : Type) := List (String × PropValue α)

namespace PropValue

variable {α : Type}

def asValue? : PropValue α → Option Json
  | .value v => some v
  | _ => none

def asString? (prop : PropValue α) : Option String := prop.asValue?.bind Json.asString?

end PropValue

end Mosaic.Render
