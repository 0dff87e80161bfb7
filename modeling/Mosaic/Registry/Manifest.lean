import Mosaic.Registry.Component

/-!
# Registry manifests

The persisted summary of one discovery run: every component type once, with its
entry, and the types that each source contributed.

* `Manifest.ofComponents`: the first component of a type is registered.
* `Manifest.toJson`, `Manifest.form`: the written form and its reader.
-/

namespace Mosaic.Registry

/-- What the manifest records about a component type. -/
@[ext] structure Entry where
  description : String
  schema : Json
  category : String
  file : String
  source : String

@[ext] structure Manifest where
  generatedAt : Time.Timestamp
  version : String
  totalComponents : Nat
  components : Dict Entry
  /-- The types of each source, in the order of registration. -/
  sources : Dict (List String)

namespace Entry

def ofComponent (component : Component) : Entry where
  description := component.description
  schema := component.schema
  category := component.category
  file := component.file
  source := component.source

def toJson (entry : Entry) : Json :=
  .object [
    ("description", .string entry.description),
    ("schema", entry.schema),
    ("category", .string entry.category),
    ("file", .string entry.file),
    ("source", .string entry.source)]

structure Draft where
  description : Option String := none
  schema : Option Json := none
  category : Option String := none
  file : Option String := none
  source : Option String := none

def form : Json.Form Entry :=
  .record {
    name := "ManifestEntry"
    fields := [
      .of "description" .string Draft.description
        (fun d v => { d with description := some v }) true,
      .of "schema" .value Draft.schema (fun d v => { d with schema := some v }) true,
      .of "category" .string Draft.category (fun d v => { d with category := some v }) false,
      .of "file" .path Draft.file (fun d v => { d with file := some v }) false,
      .of "source" .string Draft.source (fun d v => { d with source := some v }) false]
    start := {}
    finish draft := do
      let category ← Json.Form.require "category" draft.category
      let file ← Json.Form.require "file" draft.file
      let source ← Json.Form.require "source" draft.source
      return {
        category, file, source
        description := draft.description.getD ""
        schema := draft.schema.getD .null } }

end Entry

namespace Manifest

def currentVersion : String := "1.0.0"

/-- The registered types and their sources, while components are being added. -/
structure Index where
  components : Dict Entry := ∅
  sources : Dict (List String) := ∅

/-- Registers a component, unless its type is registered already. -/
def Index.add (index : Index) (component : Component) : Index :=
  if index.components.contains component.kind then index
  else
    let bucket := (index.sources.get? component.source).getD []
    { components := index.components.insert component.kind (.ofComponent component)
      sources := index.sources.insert component.source (bucket ++ [component.kind]) }

/-- The manifest of a list of components. -/
def ofComponents (generatedAt : Time.Timestamp) (components : List Component) : Manifest :=
  let index : Index := components.foldl .add {}
  { generatedAt
    version := currentVersion
    totalComponents := index.components.size
    components := index.components
    sources := index.sources }

/-- The component types, in the order of registration. -/
def types (manifest : Manifest) : List String := manifest.components.keys

def toJson (manifest : Manifest) : Json :=
  .object [
    ("generated_at", .string (String.ofList manifest.generatedAt.render)),
    ("version", .string manifest.version),
    ("total_components", .number (.int manifest.totalComponents)),
    ("components", .ofDict (manifest.components.map fun _ entry => entry.toJson)),
    ("sources", .ofDict (manifest.sources.map fun _ types => .array (types.map .string)))]

structure Draft where
  generatedAt : Option Time.Timestamp := none
  version : Option String := none
  totalComponents : Option Nat := none
  components : Option (Dict Entry) := none
  sources : Option (Dict (List String)) := none

def form : Json.Form Manifest :=
  .record {
    name := "Manifest"
    fields := [
      .of "generated_at" .time Draft.generatedAt
        (fun d v => { d with generatedAt := some v }) false,
      .of "version" .string Draft.version (fun d v => { d with version := some v }) false,
      .of "total_components" .count Draft.totalComponents
        (fun d v => { d with totalComponents := some v }) false,
      .of "components" (.dict Entry.form) Draft.components
        (fun d v => { d with components := some v }) false,
      .of "sources" (.dict (.list .string)) Draft.sources
        (fun d v => { d with sources := some v }) false]
    start := {}
    finish draft := do
      let generatedAt ← Json.Form.require "generated_at" draft.generatedAt
      let version ← Json.Form.require "version" draft.version
      let totalComponents ← Json.Form.require "total_components" draft.totalComponents
      let components ← Json.Form.require "components" draft.components
      let sources ← Json.Form.require "sources" draft.sources
      return { generatedAt, version, totalComponents, components, sources } }

/-- Reads the text of a manifest. -/
def parse (text : String) : Except Json.Error Manifest := form.parse text

/-- The content of a manifest file: indented JSON and a line break. -/
def fileText (manifest : Manifest) : String := manifest.toJson.pretty ++ "\n"

end Manifest

end Mosaic.Registry
