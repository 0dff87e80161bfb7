import Mosaic.Discovery.Settings
import Mosaic.Files.System
import Mosaic.Json.Form
import Mosaic.Log

/-!
# Projects

What a project is called and how it relates to the component library. The descriptor
of a project may declare its name; one that cannot be read declares none.

* `declaredName?`, `projectName`.
* `Project.detect`: the library itself, or a project that uses it.
-/

namespace Mosaic.Discovery

open Files

structure Descriptor where
  name : Option String

namespace Descriptor

structure Draft where
  name : Option (Option String) := none

def form : Json.Form Descriptor :=
  .record {
    name := "ProjectDescriptor"
    fields := [
      .of "name" (.optional .string) Draft.name (fun d v => { d with name := some v }) false]
    start := {}
    finish draft := .ok { name := draft.name.getD none } }

end Descriptor

/-- The name that the descriptor of a project declares. -/
def declaredName? (system : System) (root descriptor : Path) : Logged (Option String) :=
  let path := root.join descriptor
  match system.readText path with
  | .error _ => pure none
  | .ok text =>
    match Descriptor.form.parse text with
    | .ok content => pure (content.name.filter (· ≠ ""))
    | .error error => do
      .warn "unreadable project descriptor" [("path", path), ("error", error.message)]
      pure none

/-- The declared name, else the name of the directory. -/
def projectName (system : System) (root descriptor : Path) : Logged String := do
  match ← declaredName? system root descriptor with
  | some name => pure name
  | none => pure ((system.baseName? root).getD "project")

/-- How a project relates to the component library. -/
inductive Project
  | library
  /-- A project that uses the library; its own components go by its name. -/
  | consumer (name : String)
  deriving DecidableEq, Repr

def Project.detect (system : System) (root : Path) (settings : Settings) : Logged Project := do
  let declared ← declaredName? system root settings.descriptor
  if declared = some settings.libraryName then pure .library
  else do
    let name ← projectName system root settings.descriptor
    pure (.consumer name)

end Mosaic.Discovery
