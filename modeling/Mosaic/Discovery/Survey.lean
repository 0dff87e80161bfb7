import Mosaic.Discovery.Extraction
import Mosaic.Discovery.Project
import Mosaic.Discovery.Scan
import Mosaic.Registry.Storage

/-!
# Surveying a project

All components of a project, in an order that decides which of several equal types is
kept: those of the library, those of the project itself, then those of the packages
that it depends on.

* `scanInto`: the components of one place, attributed to a source.
* `keepFirst`: the first component of each type.
* `discover`, `build`: all components, and the registry made of them.
-/

namespace Mosaic.Discovery

open Files Registry

inductive DiscoveryError
  | empty (root : Path)
  | manifest (error : ManifestError)

/-- The message and those of the causes behind it. -/
def DiscoveryError.chain : DiscoveryError → List String
  | empty root => [s!"no components discovered under {root}"]
  | manifest error => error.chain

/-- The component that a file declares, attributed to a source. -/
def inspect (source : String) (root : Path) (file : SourceFile) : Logged (Option Component) :=
  match System.decode file.content with
  | .error fault => do
    .warn "skipping unreadable file" [("file", file.path), ("error", fault.message)]
    pure none
  | .ok text => do
    match ← extract text file.path root with
    | none => pure none
    | some component => do
      .info component.description [("source", source), ("component", component.kind)]
      pure (some (component.withSource source))

def inspectAll (source : String) (root : Path) : List SourceFile → Logged (List Component)
  | [] => pure []
  | file :: rest => do
    let first ← inspect source root file
    let others ← inspectAll source root rest
    pure (first.toList ++ others)

/-- The components of the sources at a place. -/
def scanInto (system : System) (settings : Settings) (root directory : Path) (depth : Nat)
    (source : String) : Logged (List Component) := do
  .info "scanning components" [("source", source), ("path", directory)]
  let files ← scan system directory depth settings.rules
  inspectAll source root files

/-- The components of the library that is installed as a package. -/
def scanLibrary (system : System) (settings : Settings) (root : Path) : Logged (List Component) := do
  let directory := ((root.join settings.rules.dependencyDirectory).join settings.libraryName).join
    settings.libraryDirectory
  if system.isDirectory directory then
    scanInto system settings root directory settings.libraryDepth settings.libraryName
  else do
    .debug "library not installed" [("path", directory)]
    pure []

/-- The components in the directories of the project itself. -/
def scanProject (system : System) (settings : Settings) (root : Path) (name : String) :
    List Path → Logged (List Component)
  | [] => pure []
  | relative :: rest => do
    let directory := root.join relative
    let first ← if system.isDirectory directory then do
        .info "found project components" [("path", relative)]
        scanInto system settings root directory settings.projectDepth name
      else pure []
    let others ← scanProject system settings root name rest
    pure (first ++ others)

/-- The other packages to be searched, in the order of their names. -/
def packages (system : System) (settings : Settings) (modules : Path) (entries : Entries) :
    List String :=
  let isPackage (name : String) : Bool :=
    system.isDirectory (modules.join name) && name.toList.head? != some '.' &&
      name != settings.libraryName
  (((entries.map Prod.fst).filter isPackage).mergeSort).take settings.ecosystemLimit

/-- Where a package keeps its components. -/
def componentPlace? (system : System) (settings : Settings) (package : Path) :
    Option SearchPlace :=
  (settings.ecosystemPlaces.map fun place => { place with directory := package.join place.directory }).find?
    fun place => system.isDirectory place.directory

def scanPackages (system : System) (settings : Settings) (root modules : Path) :
    List String → Logged (List Component)
  | [] => pure []
  | name :: rest => do
    let first ← match componentPlace? system settings (modules.join name) with
      | some place => scanInto system settings root place.directory place.depth name
      | none => pure []
    let others ← scanPackages system settings root modules rest
    pure (first ++ others)

/-- The components of other packages. -/
def scanEcosystem (system : System) (settings : Settings) (root : Path) :
    Logged (List Component) :=
  let modules := root.join settings.rules.dependencyDirectory
  match system.listDirectory modules with
  | .ok entries =>
    scanPackages system settings root modules (packages system settings modules entries)
  | .error _ => pure []

/-- All components of a project, in the order of the search. -/
def survey (system : System) (settings : Settings) (root : Path) : Logged (List Component) := do
  match ← Project.detect system root settings with
  | .library => do
    .info "detected library project" [("library", settings.libraryName)]
    scanInto system settings root (root.join settings.libraryDirectory) settings.libraryDepth
      settings.libraryName
  | .consumer name => do
    .info "detected consumer project" [("project", name)]
    let library ← scanLibrary system settings root
    let own ← scanProject system settings root name settings.projectDirectories
    let others ← if settings.ecosystem then scanEcosystem system settings root else pure []
    pure (library ++ own ++ others)

/-- The first component of each type; `kept` holds the sources of the types so far. -/
def keepFirstFrom (kept : List (String × String)) : List Component → Logged (List Component)
  | [] => pure []
  | component :: rest =>
    match kept.lookup component.kind with
    | some source => do
      .warn "duplicate component type"
        [("component", component.kind), ("kept", source), ("dropped", component.source)]
      keepFirstFrom kept rest
    | none => do
      let others ← keepFirstFrom (kept ++ [(component.kind, component.source)]) rest
      pure (component :: others)

/-- The first component of each type. The others are reported. -/
def keepFirst (components : List Component) : Logged (List Component) :=
  keepFirstFrom [] components

/-- The components of a project, one of each type. -/
def discover (system : System) (settings : Settings) (root : Path) :
    Logged (Except DiscoveryError (List Component)) := do
  let found ← survey system settings root
  let kept ← keepFirst found
  pure (if kept.isEmpty then .error (.empty root) else .ok kept)

/-- Discovers the components of a project and writes their registry. -/
def build (system : System) (settings : Settings) (root : Path) (now : Time.Timestamp) :
    Logged (Except DiscoveryError (Manifest × System)) := do
  match ← discover system settings root with
  | .error error => pure (.error error)
  | .ok components => do
    let manifest := Manifest.ofComponents now components
    let path := settings.outputPath root
    match manifest.write system path with
    | .error error => pure (.error (.manifest error))
    | .ok written => do
      .info "wrote registry"
        [("path", path), ("components", toString manifest.totalComponents),
          ("sources", toString manifest.sources.size)]
      pure (.ok (manifest, written))

end Mosaic.Discovery
