import Mosaic.Json.Form

/-!
# Registered components

What a component declares about itself, where the declaration stands, and the
source (library, project or package) it comes from.
-/

namespace Mosaic.Registry

/-- The category of components that declare none. -/
def defaultCategory : String := "general"

@[ext] structure Component where
  kind : String
  description : String := ""
  schema : Json := .null
  category : String
  file : String
  source : String := ""

namespace Component

/-- The component, attributed to a source. -/
def withSource (component : Component) (source : String) : Component :=
  { component with source }

structure Draft where
  kind : Option String := none
  description : Option String := none
  schema : Option Json := none
  category : Option String := none
  file : Option String := none
  source : Option String := none

def form : Json.Form Component :=
  .record {
    name := "ComponentMetadata"
    fields := [
      .of "type" .string Draft.kind (fun d v => { d with kind := some v }) false,
      .of "description" .string Draft.description
        (fun d v => { d with description := some v }) true,
      .of "schema" .value Draft.schema (fun d v => { d with schema := some v }) true,
      .of "category" .string Draft.category (fun d v => { d with category := some v }) false,
      .of "file" .path Draft.file (fun d v => { d with file := some v }) false,
      .of "source" .string Draft.source (fun d v => { d with source := some v }) true]
    start := {}
    finish draft := do
      let kind ← Json.Form.require "type" draft.kind
      let category ← Json.Form.require "category" draft.category
      let file ← Json.Form.require "file" draft.file
      return {
        kind, category, file
        description := draft.description.getD ""
        schema := draft.schema.getD .null
        source := draft.source.getD "" } }

end Component

end Mosaic.Registry
