import Mathlib.Data.List.Sort
import Mathlib.Data.String.Basic
import Mosaic.Discovery.Survey
import Mosaic.Proofs.Dict
import Mosaic.Proofs.Registry.Firsts

/-!
# What a survey finds

A survey is a list of places, searched one after the other. Each place says where to look, how
deep, and to which source the components there are attributed; what the survey finds is what
stands in the sources of the places, in this order, and the first component of each type is kept.

* `ownName?`: the name that a project declares.
* `searchedPlaces`: the places of a project.
* `declarations`: the components that stand in them.
* `value_survey`: a survey finds these.
* `value_keepFirst`: of these the first of each type are kept.
* `discover_of_nil`, `discover_of_ne_nil`: what is discovered, if there is nothing or something to
  be found.
-/

namespace Mosaic.Discovery

open Files Registry

/-! ## The places of a project -/

/-- A place that is searched, and the source of the components in it. -/
structure SearchedPlace extends SearchPlace where
  source : String

section

variable (system : System) (settings : Settings) (root : Path)

/-- **The name that a project declares**: the one in its descriptor, if that can be read, is a
descriptor, and gives a name that is not empty. -/
def ownName? : Option String :=
  match system.readText (root.join settings.descriptor) with
  | .ok text =>
    match Descriptor.form.parse text with
    | .ok descriptor => descriptor.name.filter (· ≠ "")
    | .error _ => none
  | .error _ => none

/-- The source of the components of a project itself: its declared name, else that of its
directory. -/
def ownSource : String := (ownName? system settings root).getD ((system.baseName? root).getD "project")

/-- The directory that holds the packages of a project. -/
def packageDirectory : Path := root.join settings.rules.dependencyDirectory

/-- The place of the components in the library itself. -/
def libraryPlace : SearchedPlace where
  directory := root.join settings.libraryDirectory
  depth := settings.libraryDepth
  source := settings.libraryName

/-- The place of the components in the library as a package. -/
def installedPlace : SearchedPlace where
  directory := ((packageDirectory settings root).join settings.libraryName).join
    settings.libraryDirectory
  depth := settings.libraryDepth
  source := settings.libraryName

/-- A place that a project may have for components of its own. -/
def ownPlace (source : String) (directory : Path) : SearchedPlace where
  directory := root.join directory
  depth := settings.projectDepth
  source

/-- Whether an entry among the packages is a package besides the library. -/
def isPackage (name : String) : Bool :=
  system.isDirectory ((packageDirectory settings root).join name) &&
    name.toList.head? != some '.' && name != settings.libraryName

/-- The names of the packages besides the library, in increasing order. -/
def packageNames : List String :=
  match system.listDirectory (packageDirectory settings root) with
  | .ok entries => ((entries.map Prod.fst).filter (isPackage system settings root)).mergeSort
  | .error _ => []

/-- The places that a package may have for components. -/
def placesOf (name : String) : List SearchedPlace :=
  settings.ecosystemPlaces.map fun place =>
    { directory := ((packageDirectory settings root).join name).join place.directory
      depth := place.depth, source := name }

/-- Whether the directory of a place is there. -/
def isThere (place : SearchedPlace) : Bool := system.isDirectory place.directory

/-- **The places that are searched.** In the library these are its own components only. Else they
are the installed library, the directories of the project, and of each of the first packages the
first place that it has. -/
def searchedPlaces : List SearchedPlace :=
  if ownName? system settings root = some settings.libraryName then [libraryPlace settings root]
  else
    (installedPlace settings root ::
      settings.projectDirectories.map (ownPlace settings root (ownSource system settings root))).filter
        (isThere system) ++
      if settings.ecosystem then
        ((packageNames system settings root).take settings.ecosystemLimit).filterMap fun name =>
          (placesOf settings root name).find? (isThere system)
      else []

/-- The component that a file declares, attributed to a source. -/
def declaration? (source : String) (file : SourceFile) : Option Component :=
  match System.decode file.content with
  | .ok text => (extract text file.path root).value.map (·.withSource source)
  | .error _ => none

/-- The components of a place, in the order of its sources. -/
def declarationsAt (place : SearchedPlace) : List Component :=
  (scan system place.directory place.depth settings.rules).value.filterMap
    (declaration? root place.source)

/-- **The components of a project**, in the order in which they are found. -/
def declarations : List Component :=
  (searchedPlaces system settings root).flatMap (declarationsAt system settings root)

end

variable {system : System} {settings : Settings} {root : Path}

/-- The name that is read for a project is the one that it declares. -/
theorem value_declaredName? :
    (declaredName? system root settings.descriptor).value = ownName? system settings root := by
  unfold declaredName? ownName?
  dsimp only
  cases system.readText (root.join settings.descriptor) with
  | error fault => rfl
  | ok text =>
    dsimp only
    cases Descriptor.form.parse text <;> rfl

/-- A descriptor that is not there declares no name. -/
theorem ownName?_of_lookup {fault : Fault}
    (h : system.lookup (root.join settings.descriptor) true = .error fault) :
    ownName? system settings root = none := by
  rw [ownName?, System.readText, h]
  rfl

/-! ## What is found in a place -/

/-- A file declares nothing if there is nothing in its text, or if it has no text. -/
theorem declaration?_eq_none_iff {source : String} {file : SourceFile} :
    declaration? root source file = none ↔
      ∀ text, System.decode file.content = .ok text → (extract text file.path root).value = none := by
  rw [declaration?]
  cases System.decode file.content with
  | error fault => simp
  | ok text => simp

/-- Looking at one file finds what it declares, whatever is logged on the way. -/
theorem value_inspect (source : String) (file : SourceFile) :
    (inspect source root file).value = declaration? root source file := by
  rw [inspect, declaration?]
  cases System.decode file.content with
  | error fault => rfl
  | ok text =>
    dsimp only
    rw [Traced.value_bind]
    cases (extract text file.path root).value <;> rfl

/-- The files of a place are looked at one after the other, and each counts for itself. -/
theorem value_inspectAll (source : String) (files : List SourceFile) :
    (inspectAll source root files).value = files.filterMap (declaration? root source) := by
  induction files with
  | nil => rfl
  | cons file rest ih =>
    show (inspect source root file).value.toList ++ (inspectAll source root rest).value = _
    rw [value_inspect, ih, List.filterMap_cons]
    cases declaration? root source file <;> rfl

/-- Scanning a place finds what its files declare, in the order of the files. -/
theorem value_scanInto (place : SearchedPlace) :
    (scanInto system settings root place.directory place.depth place.source).value =
      declarationsAt system settings root place :=
  value_inspectAll place.source _

/-! ## What is found in all places -/

/-- A place is searched if it is there. -/
theorem flatMap_filter_cons (place : SearchedPlace) (places : List SearchedPlace) :
    ((place :: places).filter (isThere system)).flatMap (declarationsAt system settings root) =
      (if isThere system place then declarationsAt system settings root place else []) ++
        (places.filter (isThere system)).flatMap (declarationsAt system settings root) := by
  rw [List.filter_cons]
  split
  · rw [List.flatMap_cons]
  · rw [List.nil_append]

/-- The library adds what is declared in its place, and nothing where it is not installed. -/
theorem value_scanLibrary :
    (scanLibrary system settings root).value =
      if isThere system (installedPlace settings root) then
        declarationsAt system settings root (installedPlace settings root)
      else [] := by
  rw [← value_scanInto, scanLibrary, isThere]
  show (if system.isDirectory (installedPlace settings root).directory then _ else _ :
    Logged (List Component)).value = _
  cases system.isDirectory (installedPlace settings root).directory <;> rfl

/-- The places of some directories of a project. -/
theorem value_scanProject (name : String) (directories : List Path) :
    (scanProject system settings root name directories).value =
      ((directories.map (ownPlace settings root name)).filter (isThere system)).flatMap
        (declarationsAt system settings root) := by
  induction directories with
  | nil => rfl
  | cons directory rest ih =>
    have hplace : (ownPlace settings root name directory).directory = root.join directory := rfl
    rw [List.map_cons, flatMap_filter_cons, ← ih, ← value_scanInto, isThere, hplace, scanProject]
    cases system.isDirectory (root.join directory) <;> rfl

/-- The first place that a package has, with the package as its source. -/
theorem componentPlace?_eq (name : String) :
    (componentPlace? system settings ((packageDirectory settings root).join name)).map
        (fun place => { place with source := name }) =
      (placesOf settings root name).find? (isThere system) := by
  rw [componentPlace?, placesOf, List.find?_map, List.find?_map, Option.map_map]
  rfl

/-- Of each package the first of its places that is there is searched, and no other. -/
theorem value_scanPackages (names : List String) :
    (scanPackages system settings root (packageDirectory settings root) names).value =
      (names.filterMap fun name =>
        (placesOf settings root name).find? (isThere system)).flatMap
          (declarationsAt system settings root) := by
  induction names with
  | nil => rfl
  | cons name rest ih =>
    rw [List.filterMap_cons, ← componentPlace?_eq, scanPackages]
    -- a package without a place for components adds nothing
    cases componentPlace? system settings ((packageDirectory settings root).join name) with
    | none => exact ih
    | some place =>
      rw [Option.map_some]
      dsimp only
      rw [List.flatMap_cons, ← ih, ← value_scanInto]
      rfl

/-- The limit counts packages, whether or not they have a place for components. -/
theorem value_scanEcosystem :
    (scanEcosystem system settings root).value =
      (((packageNames system settings root).take settings.ecosystemLimit).filterMap fun name =>
        (placesOf settings root name).find? (isThere system)).flatMap
          (declarationsAt system settings root) := by
  rw [← value_scanPackages]
  unfold scanEcosystem packageNames
  dsimp only
  rw [← packageDirectory]
  cases system.listDirectory (packageDirectory settings root) with
  | error fault =>
    show _ = (scanPackages system settings root (packageDirectory settings root)
      (List.take settings.ecosystemLimit [])).value
    rw [List.take_nil]
    rfl
  | ok entries => rfl

/-- The project calls itself what its descriptor says, or else by its directory. -/
theorem value_projectName :
    (projectName system root settings.descriptor).value = ownSource system settings root := by
  rw [projectName, Traced.value_bind, value_declaredName?, ownSource]
  cases ownName? system settings root <;> rfl

/-- A project is the library if it declares the name of the library. -/
theorem value_detect :
    (Project.detect system root settings).value =
      if ownName? system settings root = some settings.libraryName then .library
      else .consumer (ownSource system settings root) := by
  rw [Project.detect, Traced.value_bind, value_declaredName?]
  split
  · rfl
  · rw [← value_projectName]
    rfl

/-- **A survey** finds the components of all searched places, and no others. -/
theorem value_survey :
    (survey system settings root).value = declarations system settings root := by
  rw [survey, Traced.value_bind, value_detect, declarations, searchedPlaces]
  by_cases hlibrary : ownName? system settings root = some settings.libraryName
  · rw [if_pos hlibrary, if_pos hlibrary]
    show (scanInto system settings root (libraryPlace settings root).directory
      (libraryPlace settings root).depth (libraryPlace settings root).source).value = _
    rw [value_scanInto, List.flatMap_singleton]
  · rw [if_neg hlibrary, if_neg hlibrary, List.flatMap_append, flatMap_filter_cons,
      ← value_scanLibrary, ← value_scanProject]
    cases settings.ecosystem with
    | false => rfl
    | true =>
      rw [if_pos rfl, ← value_scanEcosystem]
      rfl

/-- No place declares a component if no source in it does. -/
theorem declarations_eq_nil_iff :
    declarations system settings root = [] ↔ ∀ place ∈ searchedPlaces system settings root,
      ∀ file ∈ (scan system place.directory place.depth settings.rules).value,
        ∀ text, System.decode file.content = .ok text →
          (extract text file.path root).value = none := by
  simp only [declarations, declarationsAt, List.flatMap_eq_nil_iff, List.filterMap_eq_nil_iff,
    declaration?_eq_none_iff]

/-! ## What is kept -/

/-- With some types taken, the first component of each other type is kept. -/
theorem value_keepFirstFrom (kept : List (String × String)) (components : List Component) :
    (keepFirstFrom kept components).value =
      firsts (components.filter fun c => c.kind ∉ kept.map Prod.fst) := by
  induction components generalizing kept with
  | nil => rfl
  | cons component rest ih =>
    rw [keepFirstFrom]
    by_cases hkind : component.kind ∈ kept.map Prod.fst
    · -- the type is taken
      obtain ⟨source, hsource⟩ := Option.isSome_iff_exists.mp (lookup_isSome_iff_mem_keys.mpr hkind)
      rw [hsource, List.filter_cons_of_neg (by simpa using hkind), ← ih]
      rfl
    · -- the type is taken from here on
      have hlookup : kept.lookup component.kind = none :=
        lookup_eq_none_iff_not_mem_keys.mpr hkind
      rw [hlookup, List.filter_cons_of_pos (by simpa using hkind), firsts_cons, List.filter_filter]
      show component :: (keepFirstFrom (kept ++ [(component.kind, component.source)]) rest).value = _
      have htaken : ∀ c : Component,
          c.kind ∉ (kept ++ [(component.kind, component.source)]).map Prod.fst ↔
            c.kind ≠ component.kind ∧ c.kind ∉ kept.map Prod.fst := by
        intro c
        rw [List.map_append, List.map_singleton, List.mem_append, List.mem_singleton, not_or,
          and_comm]
      rw [ih]
      refine congrArg (component :: firsts ·) (List.filter_congr fun c _ => ?_)
      rw [← Bool.decide_and, decide_eq_decide]
      exact htaken c

/-- **The first component of each type** is kept, with the source that it has there. -/
theorem value_keepFirst (components : List Component) :
    (keepFirst components).value = firsts components := by
  have hnone : components.filter (fun c => c.kind ∉ ([] : List (String × String)).map Prod.fst) =
      components := List.filter_eq_self.mpr fun c _ => by simp
  rw [keepFirst, value_keepFirstFrom, hnone]

/-- Dropping the repetitions leaves nothing only where there was nothing. -/
theorem firsts_eq_nil_iff {components : List Component} : firsts components = [] ↔ components = [] := by
  cases components with
  | nil => exact iff_of_true rfl rfl
  | cons component rest =>
    rw [firsts_cons]
    exact iff_of_false (List.cons_ne_nil _ _) (List.cons_ne_nil _ _)

/-- Discovery keeps the first of what a survey finds, if there is any. -/
theorem discover_eq_keepFirst :
    (discover system settings root).value =
      if (keepFirst (declarations system settings root)).value.isEmpty then .error (.empty root)
      else .ok (keepFirst (declarations system settings root)).value := by
  rw [← value_survey]
  rfl

/-- What is discovered depends on what stands in the searched places, and on nothing else. -/
theorem value_discover_congr {other : System}
    (h : declarations other settings root = declarations system settings root) :
    (discover other settings root).value = (discover system settings root).value := by
  rw [discover_eq_keepFirst, discover_eq_keepFirst, h]

/-- Without a single declaration the discovery fails, and names the root. -/
theorem discover_of_nil (h : declarations system settings root = []) :
    (discover system settings root).value = .error (.empty root) := by
  rw [discover_eq_keepFirst, h]
  rfl

/-- Something is discovered if there is anything to be found. -/
theorem discover_of_ne_nil (h : declarations system settings root ≠ []) :
    (discover system settings root).value = .ok (firsts (declarations system settings root)) := by
  have hkept : (firsts (declarations system settings root)).isEmpty = false :=
    List.isEmpty_eq_false_iff.mpr (mt firsts_eq_nil_iff.mp h)
  rw [discover_eq_keepFirst, value_keepFirst, hkept, if_neg Bool.false_ne_true]

end Mosaic.Discovery
