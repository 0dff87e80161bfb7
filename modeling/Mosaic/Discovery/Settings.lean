import Mosaic.Files.Path

/-!
# Settings of discovery

Where a project keeps its components, which files are sources, and where the
registry is written.
-/

namespace Mosaic.Discovery

open Files

/-- Which files are sources, and which directories are not entered. -/
structure ScanRules where
  /-- The extension of sources, without its dot. -/
  extension : String := "tsx"
  /-- The name of directories that hold other packages. -/
  dependencyDirectory : String := "node_modules"

/-- A directory, and how many levels of directories below it are searched. -/
structure SearchPlace where
  directory : Path
  depth : Nat

structure Settings where
  /-- The name of the package that is the component library. -/
  libraryName : String := "agentinterface"
  /-- The file that declares the name of a project. -/
  descriptor : Path := "package.json"
  output : Path := "ai.json"
  rules : ScanRules := {}
  libraryDirectory : Path := "src/ai"
  libraryDepth : Nat := 1
  projectDirectories : List Path :=
    ["src/components/ai", "components/ai", "web/src/components/ai", "app/components/ai"]
  projectDepth : Nat := 2
  /-- Whether other packages are searched. -/
  ecosystem : Bool := true
  /-- How many other packages are searched at most. -/
  ecosystemLimit : Nat := 20
  /-- Where another package may keep components; the first directory that it has counts. -/
  ecosystemPlaces : List SearchPlace := [⟨"src/components/ai", 2⟩, ⟨"src/ai", 1⟩]

/-- Where the registry of a project is written. -/
def Settings.outputPath (settings : Settings) (root : Path) : Path := root.join settings.output

end Mosaic.Discovery
