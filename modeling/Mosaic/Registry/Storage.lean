import Mosaic.Files.Replacement
import Mosaic.Registry.Manifest

/-!
# Manifest files

A manifest is read as a whole and replaced as a whole.
-/

namespace Mosaic.Registry

open Files

inductive ManifestError
  | inaccessible (path : Path) (fault : Fault)
  | invalid (error : Json.Error)

namespace ManifestError

def message : ManifestError → String
  | inaccessible path fault => s!"failed to access manifest {path}: {fault.message}"
  | invalid error => s!"invalid manifest JSON: {error.message}"

/-- The message and that of the cause behind it. -/
def chain (error : ManifestError) : List String :=
  match error with
  | inaccessible _ fault => [error.message, fault.message]
  | invalid cause => [error.message, cause.message]

end ManifestError

namespace Manifest

def load (system : System) (path : Path) : Except ManifestError Manifest := do
  let text ← (system.readText path).mapError (.inaccessible path)
  (parse text).mapError .invalid

/-- What is written of a manifest, piece by piece. -/
def pieces (manifest : Manifest) : List String := [manifest.toJson.pretty, "\n"]

/-- The system after the manifest has been written to a path. -/
def write (manifest : Manifest) (system : System) (path : Path) : Except ManifestError System :=
  (system.replaceFile path manifest.pieces).mapError (.inaccessible path)

end Manifest

end Mosaic.Registry
