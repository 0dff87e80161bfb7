import Mosaic.CommandLine.Command
import Mosaic.Discovery.Survey

/-!
# What commands look at

The places of a file tree that a command reads, so that nothing else has to be known
of the tree.
-/

namespace Mosaic.CommandLine

open Files Discovery

/-- What a survey of a project looks at, apart from other packages. -/
def projectFootprint (settings : Settings) (root : Path) : List SearchPlace :=
  let modules := root.join settings.rules.dependencyDirectory
  let library := (modules.join settings.libraryName).join settings.libraryDirectory
  [ ⟨root.join settings.descriptor, 0⟩,
    ⟨System.directoryOf (settings.outputPath root), 0⟩,
    ⟨root.join settings.libraryDirectory, settings.libraryDepth⟩,
    ⟨library, settings.libraryDepth⟩,
    ⟨modules, 0⟩ ] ++
    settings.projectDirectories.map fun directory =>
      ⟨root.join directory, settings.projectDepth⟩

/-- What a survey looks at in other packages. -/
def packageFootprint (system : System) (settings : Settings) (root : Path) : List SearchPlace :=
  let modules := root.join settings.rules.dependencyDirectory
  match system.listDirectory modules with
  | .ok entries =>
    (packages system settings modules entries).flatMap fun name =>
      settings.ecosystemPlaces.map fun place =>
        { place with directory := (modules.join name).join place.directory }
  | .error _ => []

end Mosaic.CommandLine
