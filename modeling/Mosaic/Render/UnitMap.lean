import Mosaic.Composition.Sink
import Mosaic.Render.Tree

/-!
# Maps of renderable units

A unit turns the props of a node into an output, and may send events to the sink
it is given. A map has at most one unit for each component type.
-/

namespace Mosaic.Render

open Mosaic.Composition

/-- What one invocation of a unit yields. -/
structure Outcome (α : Type) where
  output : α
  /-- The events sent to the sink, oldest first. -/
  events : List Event := []

abbrev RenderUnit (α : Type) := Props α → EventSink → Outcome α

structure UnitMap (α : Type) where
  units : Dict (RenderUnit α) := ∅

namespace UnitMap

variable {α : Type}

instance : EmptyCollection (UnitMap α) := ⟨{}⟩
instance : Inhabited (UnitMap α) := ⟨∅⟩

def insert (map : UnitMap α) (kind : String) (unit : RenderUnit α) : UnitMap α :=
  ⟨map.units.insert kind unit⟩

/-- The units of `map`, overridden and extended by those of `overrides`. -/
def merge (map overrides : UnitMap α) : UnitMap α := ⟨map.units.merge overrides.units⟩

def get? (map : UnitMap α) (kind : String) : Option (RenderUnit α) := map.units.get? kind

def contains (map : UnitMap α) (kind : String) : Bool := map.units.contains kind

def size (map : UnitMap α) : Nat := map.units.size

def isEmpty (map : UnitMap α) : Bool := map.units.isEmpty

/-- The component types that have a unit, in increasing order. -/
def types (map : UnitMap α) : List String := map.units.sortedKeys

def describe (map : UnitMap α) : String :=
  let names := ", ".intercalate (map.types.map Text.quoted)
  s!"ComponentMap \x7b types: [{names}] \x7d"

end UnitMap

end Mosaic.Render
