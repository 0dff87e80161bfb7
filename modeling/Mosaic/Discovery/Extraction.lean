import Mosaic.Files.Path
import Mosaic.Log
import Mosaic.Registry.Component
import Mosaic.Tsx.Program

/-!
# Component metadata in sources

A source declares a component by an exported variable, named `metadata` or with a
name that ends in `Metadata`, whose value is an object literal with a type.

* `isMetadataName`: which names count.
* `ofProgram`: the component that the first usable declaration describes.
* `extract`: the same from the text of a source, which must be free of errors.
-/

namespace Mosaic.Discovery

open Files Registry

/-- Whether a variable of that name holds component metadata. -/
def isMetadataName (name : String) : Bool := "Metadata".toList.isSuffixOf name.toList || name = "metadata"

/-- A member of an object literal, if it is a string. -/
def stringMember? (members : List (String × Json)) (name : String) : Option String :=
  (members.lookup name).bind Json.asString?

/-- The type that an object literal declares. -/
def declaredType? (members : List (String × Json)) : Option String :=
  (stringMember? members "type").filter (· ≠ "")

/-- The component of the given type that an object literal describes. -/
def componentOf (kind : String) (members : List (String × Json)) (file : Path) : Component where
  kind
  description := (stringMember? members "description").getD ""
  schema := (members.lookup "schema").getD .null
  category := ((stringMember? members "category").filter (· ≠ "")).getD defaultCategory
  file

/-- The value that an exported variable gives to component metadata. -/
def metadataValue? (declarator : Tsx.Declarator) : Option Json :=
  match declarator.name, declarator.value with
  | some name, some value =>
    if isMetadataName name then some value.literal.evaluate else none
  | _, _ => none

/-- The component that a value describes. An object without a type describes none,
which is worth a remark. -/
def describe (file root : Path) : Json → Logged (Option Component)
  | .object members =>
    match declaredType? members with
    | some kind => pure (some (componentOf kind members (file.relativeTo root)))
    | none => do
      .debug "metadata export has no type" [("file", file)]
      pure none
  | _ => pure none

/-- The component that the first usable value describes. -/
def describeFirst (file root : Path) : List Json → Logged (Option Component)
  | [] => pure none
  | value :: rest => do
    match ← describe file root value with
    | some component => pure (some component)
    | none => describeFirst file root rest

/-- The values of the metadata that a statement exports. -/
def exportedValues : Tsx.Statement → List Json
  | .exportedVariables declarators => declarators.filterMap metadataValue?
  | .other => []

def ofProgram (program : Tsx.Program) (file root : Path) : Logged (Option Component) :=
  describeFirst file root (program.flatMap exportedValues)

/-- The component that a source declares. A source with a syntax error declares none. -/
def extract (source : String) (file root : Path) : Logged (Option Component) :=
  match Tsx.Program.parse? source with
  | some program => ofProgram program file root
  | none => do
    .warn "failed to parse metadata: syntax error" [("file", file)]
    pure none

end Mosaic.Discovery
