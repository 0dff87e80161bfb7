import Mosaic.Proofs.Discovery.Outcome

/-!
# Sources that declare nothing

A source that declares nothing, because it is no text, has a syntax error or exports no metadata,
might as well not be there: discovery finds the same components in the same order from the same
sources. This is so unless the file plays another part in the project, as its descriptor or as what
a link at its root leads to.

* `Silent`, `silent_iff`: the contents that declare nothing.
* `searchedPlaces_exchanged`: the places do not depend on the content of a source.
* `declarations_exchanged`: what a file declares, among what the others declare.
* `discover_silenced`: a file that declares nothing, and a file that is not there.
* `discover_silenced_ne`: a file that plays another part.
-/

namespace Mosaic.Discovery

open Files Registry

/-! ## Contents without a declaration -/

/-- Whether a content declares nothing, in whatever file it stands. -/
def Silent (content : ByteArray) : Prop :=
  ∀ text, System.decode content = .ok text → ∀ file root, (extract text file root).value = none

/-- **A content declares nothing** if it is no text, if its text has a syntax error, or if none of
the metadata that the text exports has a type. -/
theorem silent_iff {content : ByteArray} :
    Silent content ↔
      (∀ text, System.decode content ≠ .ok text) ∨
      ∃ text, System.decode content = .ok text ∧
        (Tsx.Program.parse? text = none ∨
          ∃ program, Tsx.Program.parse? text = some program ∧
            ∀ members, Json.object members ∈ program.flatMap exportedValues →
              declaredType? members = none) := by
  rw [Silent]
  cases System.decode content with
  | error fault => exact iff_of_true (by simp) (.inl (by simp))
  | ok text =>
    -- only the exported values of a program can declare something
    constructor
    · exact fun h => .inr ⟨text, rfl, value_extract_eq_none_iff.mp (h text rfl "" "")⟩
    · rintro (h | ⟨other, hother, hnone⟩)
      · exact absurd rfl (h text)
      · rintro _ ⟨rfl⟩ file root
        rw [← Except.ok.inj hother] at hnone
        exact value_extract_eq_none_iff.mpr hnone

/-! ## The places -/

section

variable {system : System} {settings : Settings} {root : Path} {directory : Location}
  {name : String} {content : ByteArray} {content? : Option ByteArray}

/-- The packages are found among the names in their directory. -/
theorem packageNames_eq (system : System) (settings : Settings) (root : Path) :
    packageNames system settings root =
      ((system.names (packageDirectory settings root)).filter
        (isPackage system settings root)).mergeSort := by
  unfold packageNames System.names
  cases system.listDirectory (packageDirectory settings root) with
  | error fault => exact List.mergeSort_nil.symm
  | ok entries => rfl

variable (hfile : system.tree.at? (directory ++ [name]) = some (.file content))
include hfile

/-- A file is no package. -/
theorem isPackage_eq_false (hname : IsName name) (hslash : '/' ∉ name.toList)
    (hmodules : system.resolve (packageDirectory settings root) true = .ok directory) :
    isPackage system settings root name = false := by
  obtain ⟨entries, hentries, hlookup⟩ := FileTree.entries_of_at? hfile
  have hresolve := System.resolve_join hname hslash hmodules hentries hlookup
  have hdirectory : system.isDirectory ((packageDirectory settings root).join name) = false := by
    rw [← Bool.not_eq_true, System.isDirectory_iff]
    rintro ⟨location, hlocation, hsight⟩
    rw [hresolve] at hlocation
    rw [← Except.ok.inj hlocation, FileTree.see?, hfile] at hsight
    cases hsight
  rw [isPackage, hdirectory, Bool.false_and, Bool.false_and]

/-- What counts as a package does not depend on the file. -/
theorem isPackage_exchanged :
    isPackage (system.exchanged directory name content?) settings root =
      isPackage system settings root := by
  funext package
  rw [isPackage, isPackage, System.isDirectory_exchanged hfile]

/-- Nor do the names of the packages. -/
theorem packageNames_exchanged (hname : IsName name) (hslash : '/' ∉ name.toList) :
    packageNames (system.exchanged directory name content?) settings root =
      packageNames system settings root := by
  rw [packageNames_eq, packageNames_eq, isPackage_exchanged hfile]
  rcases System.names_exchanged hfile (packageDirectory settings root) with hsame | ⟨hmodules, hnames⟩
  · rw [hsame]
  · -- the file is among the names in one system only, but it is no package in any
    have hpackage := isPackage_eq_false hfile hname hslash hmodules
    rw [hnames, List.filter_filter]
    congr 1
    refine List.filter_congr fun other _ => ?_
    by_cases hother : other = name
    · rw [hother, hpackage, Bool.false_and]
    · rw [decide_eq_true hother, Bool.and_true]

/-- Nor does it depend on the file which places are there. -/
theorem isThere_exchanged :
    isThere (system.exchanged directory name content?) = isThere system := by
  funext place
  exact System.isDirectory_exchanged hfile place.directory

/-- The descriptor is read as before, if it is another file. -/
theorem ownName?_exchanged
    (hdescriptor : system.resolve (root.join settings.descriptor) true ≠ .ok (directory ++ [name])) :
    ownName? (system.exchanged directory name content?) settings root =
      ownName? system settings root := by
  have hsame : ∀ text,
      (system.exchanged directory name content?).readText (root.join settings.descriptor) = .ok text ↔
        system.readText (root.join settings.descriptor) = .ok text :=
    fun text => System.readText_exchanged_iff hfile hdescriptor
  rw [ownName?, ownName?]
  cases hbefore : system.readText (root.join settings.descriptor) with
  | ok text => rw [(hsame text).mpr hbefore]
  | error fault =>
    cases hafter : (system.exchanged directory name content?).readText
        (root.join settings.descriptor) with
    | ok text =>
      rw [(hsame text).mp hafter] at hbefore
      cases hbefore
    | error other => rfl

/-- **The places that are searched** do not depend on the file, unless it is the descriptor or names
the project. -/
theorem searchedPlaces_exchanged (hname : IsName name) (hslash : '/' ∉ name.toList)
    (hdescriptor : system.resolve (root.join settings.descriptor) true ≠ .ok (directory ++ [name]))
    (hroot : system.resolve root true = .ok (directory ++ [name]) → root.fileName? = some name) :
    searchedPlaces (system.exchanged directory name content?) settings root =
      searchedPlaces system settings root := by
  have hsource : ownSource (system.exchanged directory name content?) settings root =
      ownSource system settings root := by
    rw [ownSource, ownSource, ownName?_exchanged hfile hdescriptor,
      System.baseName?_exchanged hfile hroot]
  rw [searchedPlaces, searchedPlaces, ownName?_exchanged hfile hdescriptor, hsource,
    packageNames_exchanged hfile hname hslash, isThere_exchanged hfile]

end

/-! ## The declarations -/

/-- What is declared at a point if the file has its own content there, and whether it is the file
that declares it. -/
def Slot.declared? (root : Path) (source : String) (own : ByteArray) (slot : Slot) :
    Option (Component × Bool) :=
  (declaration? root source ⟨slot.path, slot.content?.getD own⟩).map (·, slot.content?.isNone)

section

variable (root : Path) (source : String) (own : ByteArray) (slots : List Slot)

/-- With its own content, the file declares what it declares. -/
theorem filterMap_fill_own :
    (slots.filterMap (Slot.fill (some own))).filterMap (declaration? root source) =
      (slots.filterMap (Slot.declared? root source own)).map Prod.fst := by
  rw [List.filterMap_filterMap, List.map_filterMap]
  refine List.filterMap_congr fun slot _ => ?_
  obtain ⟨path, _ | content⟩ := slot
  all_goals simp [Slot.fill, Slot.declared?, Function.comp_def]

/-- Without the file, the others declare what they declare. -/
theorem filterMap_fill_none :
    (slots.filterMap (Slot.fill none)).filterMap (declaration? root source) =
      ((slots.filterMap (Slot.declared? root source own)).filter (!·.2)).map Prod.fst := by
  rw [List.filterMap_filterMap, List.filter_filterMap, List.map_filterMap]
  refine List.filterMap_congr fun slot _ => ?_
  obtain ⟨path, _ | content⟩ := slot
  · simp only [Slot.fill, Slot.declared?, Option.getD_none, Option.isNone_none]
    cases declaration? root source ⟨path, own⟩ <;> rfl
  · simp only [Slot.fill, Slot.declared?, Option.getD_some, Option.isNone_some]
    cases hdeclared : declaration? root source ⟨path, content⟩ <;>
      simp [hdeclared, Option.filter]

/-- A file that declares nothing might as well not be there. -/
theorem filterMap_fill_silent {content : ByteArray} (hsilent : Silent content) :
    (slots.filterMap (Slot.fill (some content))).filterMap (declaration? root source) =
      (slots.filterMap (Slot.fill none)).filterMap (declaration? root source) := by
  rw [List.filterMap_filterMap, List.filterMap_filterMap]
  refine List.filterMap_congr fun slot _ => ?_
  obtain ⟨path, _ | found⟩ := slot
  · have hnone : declaration? root source ⟨path, content⟩ = none :=
      declaration?_eq_none_iff.mpr fun text htext => hsilent text htext path root
    exact hnone
  · rfl

end

section

variable {system : System} {settings : Settings} {root : Path} {directory : Location}
  {name : String} {own : ByteArray}

/-- **What a file declares** stands among what the others declare, and they declare the same
whatever is in the file. -/
theorem declarations_exchanged (hwf : system.tree.WellFormed)
    (hfile : system.tree.at? (directory ++ [name]) = some (.file own)) (hname : IsName name)
    (hslash : '/' ∉ name.toList)
    (hdescriptor : system.resolve (root.join settings.descriptor) true ≠ .ok (directory ++ [name]))
    (hroot : system.resolve root true = .ok (directory ++ [name]) → root.fileName? = some name) :
    ∃ marked : List (Component × Bool),
      declarations system settings root = marked.map Prod.fst ∧
      declarations (system.without directory name) settings root =
        (marked.filter (!·.2)).map Prod.fst ∧
      (∀ content, Silent content →
        declarations (system.overwritten directory name content) settings root =
          declarations (system.without directory name) settings root) ∧
      ∀ component, (component, true) ∈ marked →
        ∃ source path, declaration? root source ⟨path, own⟩ = some component := by
  choose slots hslots using fun place : SearchedPlace =>
    filled_scan hwf hfile settings.rules place.directory place.depth
  have hplaces : ∀ content?, searchedPlaces (system.exchanged directory name content?) settings root =
      searchedPlaces system settings root :=
    fun content? => searchedPlaces_exchanged hfile hname hslash hdescriptor hroot
  -- each place has the same points, and they are filled with the content of the file
  have hdeclarations : ∀ content?,
      declarations (system.exchanged directory name content?) settings root =
        (searchedPlaces system settings root).flatMap fun place =>
          ((slots place).filterMap (Slot.fill content?)).filterMap
            (declaration? root place.source) := by
    intro content?
    rw [declarations, hplaces]
    refine List.flatMap_congr fun place _ => ?_
    exact congrArg (List.filterMap (declaration? root place.source)) (hslots place content?)
  have hown : system.exchanged directory name (some own) = system := System.overwritten_self hfile
  refine ⟨(searchedPlaces system settings root).flatMap fun place =>
    (slots place).filterMap (Slot.declared? root place.source own), ?_, ?_, ?_, ?_⟩
  · have hall := hdeclarations (some own)
    rw [hown] at hall
    simp only [hall, List.map_flatMap, filterMap_fill_own]
  · have hnone := hdeclarations none
    rw [System.exchanged_none] at hnone
    simp only [hnone, List.filter_flatMap, List.map_flatMap, filterMap_fill_none root _ own]
  · intro content hsilent
    rw [← System.exchanged_some, ← System.exchanged_none, hdeclarations, hdeclarations]
    exact List.flatMap_congr fun place _ => filterMap_fill_silent root place.source _ hsilent
  · intro component hcomponent
    obtain ⟨place, -, hplace⟩ := List.mem_flatMap.mp hcomponent
    obtain ⟨⟨path, content?⟩, -, hslot⟩ := List.mem_filterMap.mp hplace
    rw [Slot.declared?, Option.map_eq_some_iff] at hslot
    obtain ⟨declared, hdeclared, heq⟩ := hslot
    obtain ⟨rfl, hnone⟩ := Prod.mk.inj heq
    rw [Option.isNone_iff_eq_none] at hnone
    subst hnone
    exact ⟨place.source, path, hdeclared⟩

/-- A component that is kept is kept again, if another file was the first to declare its type. -/
theorem mem_firsts_of_find? {marked : List (Component × Bool)} {component : Component}
    (hfirst : marked.find? (·.1.kind = component.kind) = some (component, false)) :
    component ∈ firsts ((marked.filter (!·.2)).map Prod.fst) := by
  -- no component before it has its type, and so none of those before it that are left
  obtain ⟨-, before, rest, hmarked, hbefore⟩ := List.find?_eq_some_iff_append.mp hfirst
  have hkept : (marked.filter (!·.2)).find? (·.1.kind = component.kind) = some (component, false) := by
    rw [hmarked, List.filter_append, List.find?_append]
    have hnone : (before.filter (!·.2)).find? (·.1.kind = component.kind) = none := by
      rw [List.find?_eq_none]
      exact fun other hother => by simpa using hbefore other (List.mem_of_mem_filter hother)
    rw [hnone, Option.none_or, List.filter_cons_of_pos rfl, List.find?_cons_of_pos (by simp)]
  have hfound : (firsts ((marked.filter (!·.2)).map Prod.fst)).find? (·.kind = component.kind) =
      some component := by
    rw [find?_firsts, List.find?_map]
    exact congrArg (Option.map Prod.fst) hkept
  exact List.mem_of_find?_eq_some hfound

end

/-! ## A project with a link to one of its sources -/

/-- Whether a file is found when a project is searched. -/
def IsSearched (system : System) (settings : Settings) (root : Path) (file : SourceFile) : Prop :=
  ∃ place ∈ searchedPlaces system settings root,
    file ∈ (scan system place.directory place.depth settings.rules).value

section

variable {system other : System} {settings : Settings} {root : Path}

/-- A file in a directory of the project itself is found. -/
theorem isSearched_of_own {directory : Path} {file : SourceFile}
    (hname : ownName? system settings root ≠ some settings.libraryName)
    (hdirectory : directory ∈ settings.projectDirectories)
    (hthere : system.isDirectory (root.join directory) = true)
    (hfile : file ∈ (scan system (root.join directory) settings.projectDepth settings.rules).value) :
    IsSearched system settings root file := by
  refine ⟨ownPlace settings root (ownSource system settings root) directory, ?_, hfile⟩
  rw [searchedPlaces, if_neg hname]
  refine List.mem_append_left _ (List.mem_filter.mpr ⟨List.mem_cons_of_mem _ ?_, hthere⟩)
  exact List.mem_map_of_mem hdirectory

/-- Something is declared if one of the searched files declares something. -/
theorem declarations_ne_nil {file : SourceFile} (hfile : IsSearched system settings root file)
    (hdeclared : ∀ source, declaration? root source file ≠ none) :
    declarations system settings root ≠ [] := by
  obtain ⟨place, hplace, hfound⟩ := hfile
  intro hnil
  exact hdeclared "" (declaration?_eq_none_iff.mpr
    (declarations_eq_nil_iff.mp hnil place hplace file hfound))

/-- Without the library and other packages, all components go by the name of the project. -/
theorem source_of_mem_declarations {component : Component}
    (hname : ownName? system settings root ≠ some settings.libraryName)
    (hlibrary : isThere system (installedPlace settings root) = false)
    (hecosystem : settings.ecosystem = false)
    (h : component ∈ declarations system settings root) :
    component.source = ownSource system settings root := by
  obtain ⟨place, hplace, hcomponent⟩ := List.mem_flatMap.mp h
  -- only the directories of the project itself are left of the places
  rw [searchedPlaces, if_neg hname, hecosystem, if_neg Bool.false_ne_true, List.append_nil,
    List.filter_cons, hlibrary, if_neg Bool.false_ne_true] at hplace
  obtain ⟨directory, -, rfl⟩ := List.mem_map.mp (List.mem_of_mem_filter hplace)
  obtain ⟨file, -, hfile⟩ := List.mem_filterMap.mp hcomponent
  rw [declaration?] at hfile
  cases hdecode : System.decode file.content with
  | error fault =>
    rw [hdecode] at hfile
    cases hfile
  | ok text =>
    rw [hdecode] at hfile
    obtain ⟨declared, -, rfl⟩ := Option.map_eq_some_iff.mp hfile
    rfl

/-- Components that go by one name are other components than those that go by another. -/
theorem value_discover_ne {source source' : String} (hsource : source ≠ source')
    (h : ∀ component ∈ declarations system settings root, component.source = source)
    (h' : ∀ component ∈ declarations other settings root, component.source = source')
    (hsome : declarations system settings root ≠ []) :
    (discover system settings root).value ≠ (discover other settings root).value := by
  intro heq
  rw [discover_of_ne_nil hsome] at heq
  by_cases hnil : declarations other settings root = []
  · rw [discover_of_nil hnil] at heq
    cases heq
  · rw [discover_of_ne_nil hnil] at heq
    obtain ⟨component, hcomponent⟩ :=
      List.exists_mem_of_ne_nil _ (mt firsts_eq_nil_iff.mp hsome)
    have hcomponent' := Except.ok.inj heq ▸ hcomponent
    exact hsource ((h _ (mem_of_mem_firsts hcomponent)).symm.trans
      (h' _ (mem_of_mem_firsts hcomponent')))

end

/-- A text that declares a component. -/
def cardText : String := typeText "card"

/-- A text that declares the name of a project, but no component. -/
def nameText : String := descriptorText "other"

/-- The directory of the components. -/
def cardDirectory : Location := ["demo", "components", "ai"]

/-- A drive with a project, and a link to a source that the project may have. -/
def linkedDrive (entries : Entries) : System where
  tree := .directory [("app", .link "/demo/components/ai/app.tsx"),
    ("demo", .directory [("components", .directory [("ai", .directory entries)])])]

/-- The drive with the source to which the link leads, and another source. -/
def fullDrive (text : String) : System :=
  linkedDrive [("app.tsx", .file text.toUTF8), ("card.tsx", .file cardText.toUTF8)]

/-- The drive with the other source only. -/
def bareDrive : System := linkedDrive [("card.tsx", .file cardText.toUTF8)]

theorem silent_nameText : Silent nameText.toUTF8 := by
  have hparse : Tsx.Program.parse? nameText = none := by cbv
  exact silent_iff.mpr (.inr ⟨_, System.decode_toUTF8 _, .inl hparse⟩)

theorem declaration?_cardText (source : String) (file root : Path) :
    declaration? root source ⟨file, cardText.toUTF8⟩ ≠ none := by
  rw [cardText, declaration?_typeText (by decide)]
  exact Option.some_ne_none _

theorem wellFormed_fullDrive (text : String) : (fullDrive text).tree.WellFormed := by
  simp [fullDrive, linkedDrive, FileTree.WellFormed, FileTree.WellFormedEntries]

theorem lookup_linkedDrive (entries : Entries) (followsLast : Bool) :
    (linkedDrive entries).lookup "/demo/components/ai" followsLast = .ok (.directory entries) := by
  cases followsLast <;> cbv

/-- Among the entries of the directory a source is found, unless its name is left out. -/
theorem mem_scan_linkedDrive {entries : Entries} {name : String} {content : ByteArray}
    (hentry : (name, .file content) ∈ entries) (hkept : ScanRules.skips {} name = false)
    (hsource : ScanRules.isSource {} (Path.join "/demo/components/ai" name) = true) (depth : Nat) :
    ⟨Path.join "/demo/components/ai" name, content⟩ ∈
      (scan (linkedDrive entries) "/demo/components/ai" depth {}).value := by
  rw [value_scan, lookup_linkedDrive]
  exact mem_sourcesOf_directory hentry hkept hsource

section

variable {settings : Settings} {root directory : Path}
  (hdirectory : directory ∈ settings.projectDirectories)
  (hpath : root.join directory = "/demo/components/ai") (hrules : settings.rules = {})
include hdirectory hpath hrules

/-- A source in the directory is found when the project is searched. -/
theorem isSearched_linkedDrive {entries : Entries} {name : String} {content : ByteArray}
    (hlibrary : ownName? (linkedDrive entries) settings root ≠ some settings.libraryName)
    (hentry : (name, .file content) ∈ entries) (hkept : ScanRules.skips {} name = false)
    (hsource : ScanRules.isSource {} (Path.join "/demo/components/ai" name) = true) :
    IsSearched (linkedDrive entries) settings root
      ⟨Path.join "/demo/components/ai" name, content⟩ := by
  refine isSearched_of_own hlibrary hdirectory ?_ ?_
  · rw [hpath, System.isDirectory, lookup_linkedDrive]
    rfl
  · rw [hpath, hrules]
    exact mem_scan_linkedDrive hentry hkept hsource _

/-- The drives have different components if the project goes by different names there. -/
theorem value_discover_fullDrive_ne {text : String} (hecosystem : settings.ecosystem = false)
    (hinstalled : isThere (fullDrive text) (installedPlace settings root) = false)
    (hinstalled' : isThere bareDrive (installedPlace settings root) = false)
    (hlibrary : ownName? (fullDrive text) settings root ≠ some settings.libraryName)
    (hlibrary' : ownName? bareDrive settings root ≠ some settings.libraryName)
    (hsource : ownSource (fullDrive text) settings root ≠ ownSource bareDrive settings root) :
    (discover (fullDrive text) settings root).value ≠ (discover bareDrive settings root).value := by
  have hcard : IsSearched (fullDrive text) settings root
      ⟨Path.join "/demo/components/ai" "card.tsx", cardText.toUTF8⟩ :=
    isSearched_linkedDrive hdirectory hpath hrules hlibrary (by simp) rfl rfl
  refine value_discover_ne hsource
    (fun _ => source_of_mem_declarations hlibrary hinstalled hecosystem)
    (fun _ => source_of_mem_declarations hlibrary' hinstalled' hecosystem) ?_
  exact declarations_ne_nil hcard fun source => declaration?_cardText source _ _

end

/-- The settings of a project that has one of its sources for its descriptor. -/
def sourceSettings : Settings where
  descriptor := "components/ai/app.tsx"
  ecosystem := false

/-- With the source for its descriptor, the project has the name that this text gives. -/
theorem ownName?_fullDrive (text : String) :
    ownName? (fullDrive text) sourceSettings "/demo" =
      (Descriptor.form.parse text).toOption.bind fun descriptor =>
        descriptor.name.filter (· ≠ "") := by
  have hlookup : ∀ content rest, (linkedDrive (("app.tsx", .file content) :: rest)).lookup
      "/demo/components/ai/app.tsx" true = .ok (.file content) := by
    intro content rest
    cbv
  exact ownName?_of_text (hlookup _ _)

/-- The project goes by the name that the source declares, or by that of its directory. -/
theorem value_discover_fullDrive_ne_of_descriptor :
    (discover (fullDrive nameText) sourceSettings "/demo").value ≠
      (discover bareDrive sourceSettings "/demo").value := by
  -- without the file the descriptor is missing, and the project has the name of its directory
  have hdirectory : "components/ai" ∈ sourceSettings.projectDirectories := by decide
  have hinstalled : ∀ entries, isThere (linkedDrive entries)
      (installedPlace sourceSettings "/demo") = false := by
    intro entries
    show (linkedDrive entries).isDirectory "/demo/node_modules/agentinterface/src/ai" = false
    cbv
  have hroot : ∀ entries, (linkedDrive entries).baseName? "/demo" = some "demo" := by
    intro entries
    cbv
  have hlookup : ∀ node, (linkedDrive [("card.tsx", node)]).lookup
      (Path.join "/demo" sourceSettings.descriptor) true = .error .missing := by
    intro node
    show (linkedDrive [("card.tsx", node)]).lookup "/demo/components/ai/app.tsx" true = _
    cbv
  have hname : ownName? (fullDrive nameText) sourceSettings "/demo" = some "other" := by
    rw [ownName?_fullDrive]
    rfl
  have hname' : ownName? bareDrive sourceSettings "/demo" = none := ownName?_of_lookup (hlookup _)
  refine value_discover_fullDrive_ne hdirectory rfl rfl rfl (hinstalled _) (hinstalled _) ?_ ?_ ?_
  · rw [hname]
    decide
  · rw [hname']
    decide
  · rw [ownSource, hname, ownSource, hname', bareDrive, hroot]
    decide

/-- The settings of a project whose components are elsewhere. -/
def elsewhereSettings : Settings where
  projectDirectories := ["/demo/components/ai"]
  ecosystem := false

/-- With the source in the place of its root, the project has no descriptor. -/
theorem ownName?_fullDrive_link (text : String) :
    ownName? (fullDrive text) elsewhereSettings "/app" = none := by
  have hlookup : ∀ content rest, (linkedDrive (("app.tsx", .file content) :: rest)).lookup
      "/app/package.json" true = .error .notDirectory := by
    intro content rest
    cbv
  exact ownName?_of_lookup (hlookup _ _)

/-- The project goes by the name of the source to which its root leads, or by that of the link. -/
theorem value_discover_fullDrive_ne_of_link (text : String) :
    (discover (fullDrive text) elsewhereSettings "/app").value ≠
      (discover bareDrive elsewhereSettings "/app").value := by
  -- without the file the link leads nowhere, and the root has the name of the link
  have hdirectory : "/demo/components/ai" ∈ elsewhereSettings.projectDirectories := by decide
  have hfull : ∀ content rest,
      (linkedDrive (("app.tsx", .file content) :: rest)).isDirectory
        "/app/node_modules/agentinterface/src/ai" = false ∧
      (linkedDrive (("app.tsx", .file content) :: rest)).baseName? "/app" = some "app.tsx" := by
    intro content rest
    refine ⟨?_, ?_⟩ <;> cbv
  have hbare : ∀ node,
      (linkedDrive [("card.tsx", node)]).isDirectory
        "/app/node_modules/agentinterface/src/ai" = false ∧
      (linkedDrive [("card.tsx", node)]).lookup "/app/package.json" true = .error .missing ∧
      (linkedDrive [("card.tsx", node)]).baseName? "/app" = some "app" := by
    intro node
    refine ⟨?_, ?_, ?_⟩ <;> cbv
  obtain ⟨hinstalled, hbase⟩ := hfull text.toUTF8 [("card.tsx", .file cardText.toUTF8)]
  obtain ⟨hinstalled', hread', hbase'⟩ := hbare (.file cardText.toUTF8)
  have hname := ownName?_fullDrive_link text
  have hname' : ownName? bareDrive elsewhereSettings "/app" = none := ownName?_of_lookup hread'
  refine value_discover_fullDrive_ne hdirectory rfl rfl rfl hinstalled hinstalled' ?_ ?_ ?_
  · rw [hname]
    decide
  · rw [hname']
    decide
  · rw [ownSource, hname, ownSource, hname', fullDrive, hbase, bareDrive, hbase']
    decide

section

variable {system : System} {settings : Settings} {root : Path} {directory : Location}
  {name : String} {own : ByteArray}

/-- **A file that declares nothing** might as well not be there. It changes nothing of what the
other files declare; a type goes to the first of them that declares it, and stays with that if the
file was not before it. -/
theorem discover_silenced {content : ByteArray} (hwf : system.tree.WellFormed)
    (hfile : system.tree.at? (directory ++ [name]) = some (.file own)) (hname : IsName name)
    (hslash : '/' ∉ name.toList)
    (hdescriptor : system.resolve (root.join settings.descriptor) true ≠ .ok (directory ++ [name]))
    (hroot : system.resolve root true = .ok (directory ++ [name]) → root.fileName? = some name)
    (hsilent : Silent content) :
    (discover (system.overwritten directory name content) settings root).value =
        (discover (system.without directory name) settings root).value ∧
      ∃ marked : List (Component × Bool),
        declarations system settings root = marked.map Prod.fst ∧
        declarations (system.overwritten directory name content) settings root =
          (marked.filter (!·.2)).map Prod.fst ∧
        (∀ component, (component, true) ∈ marked →
          ∃ source path, declaration? root source ⟨path, own⟩ = some component) ∧
        (∀ kind,
          (firsts (declarations (system.overwritten directory name content) settings root)).find?
              (·.kind = kind) =
            (marked.find? fun declared => !declared.2 && declared.1.kind = kind).map Prod.fst) ∧
        ∀ component, marked.find? (·.1.kind = component.kind) = some (component, false) →
          component ∈
            firsts (declarations (system.overwritten directory name content) settings root) := by
  -- the same components are marked, whatever the silent content is
  obtain ⟨marked, hall, hothers, hsilenced, hown⟩ :=
    declarations_exchanged hwf hfile hname hslash hdescriptor hroot
  have hoverwritten := hsilenced content hsilent
  refine ⟨?_, marked, hall, hoverwritten.trans hothers, hown, fun kind => ?_,
    fun component hfirst => ?_⟩
  · -- the results are equal because the declarations are
    exact value_discover_congr hoverwritten
  · -- the silenced ones drop out, and of the others the first of each type is kept
    rw [hoverwritten, hothers, find?_firsts, List.find?_map, List.find?_filter]
    simp
  · -- a component that is the first of its type also without the silenced ones is kept
    rw [hoverwritten, hothers]
    exact mem_firsts_of_find? hfirst

end

/-- A source of a project becomes a text that is no program, and plays no other part there. -/
theorem discover_silenced_fullDrive :
    (fullDrive cardText).tree.WellFormed ∧
    (fullDrive cardText).tree.at? (cardDirectory ++ ["app.tsx"]) = some (.file cardText.toUTF8) ∧
    IsName "app.tsx" ∧ '/' ∉ "app.tsx".toList ∧
    (fullDrive cardText).resolve (Path.join "/demo" (Settings.descriptor {})) true ≠
      .ok (cardDirectory ++ ["app.tsx"]) ∧
    ((fullDrive cardText).resolve "/demo" true = .ok (cardDirectory ++ ["app.tsx"]) →
      Path.fileName? "/demo" = some "app.tsx") ∧
    Silent nameText.toUTF8 ∧
    (discover ((fullDrive cardText).overwritten cardDirectory "app.tsx" nameText.toUTF8) {}
        "/demo").value =
      (discover ((fullDrive cardText).without cardDirectory "app.tsx") {} "/demo").value := by
  -- neither the descriptor nor the root leads to the file that is silenced
  have hplaces : ∀ entries,
      (linkedDrive entries).resolve (Path.join "/demo" (Settings.descriptor {})) true =
        .error .missing ∧
      (linkedDrive entries).resolve "/demo" true = .ok ["demo"] := by
    intro entries
    refine ⟨?_, ?_⟩
    · show (linkedDrive entries).resolve "/demo/package.json" true = _
      cbv
    · cbv
  have hwf := wellFormed_fullDrive cardText
  have hfile : (fullDrive cardText).tree.at? (cardDirectory ++ ["app.tsx"]) =
      some (.file cardText.toUTF8) := rfl
  have hname : IsName "app.tsx" := by decide
  have hslash : '/' ∉ "app.tsx".toList := by decide
  have hdescriptor : (fullDrive cardText).resolve (Path.join "/demo" (Settings.descriptor {})) true ≠
      .ok (cardDirectory ++ ["app.tsx"]) := by
    rw [fullDrive, (hplaces _).1]
    simp
  have hroot : (fullDrive cardText).resolve "/demo" true = .ok (cardDirectory ++ ["app.tsx"]) →
      Path.fileName? "/demo" = some "app.tsx" := by
    rw [fullDrive, (hplaces _).2]
    exact fun h => absurd (Except.ok.inj h) (by decide)
  exact ⟨hwf, hfile, hname, hslash, hdescriptor, hroot, silent_nameText,
    (discover_silenced hwf hfile hname hslash hdescriptor hroot silent_nameText).1⟩

/-- A source that is searched may also name its project, as the descriptor or as what the root
leads to. If it declares nothing, the other components still go by the name that it gives. -/
theorem discover_silenced_ne :
    (fullDrive cardText).tree.WellFormed ∧
    (fullDrive cardText).tree.at? (cardDirectory ++ ["app.tsx"]) = some (.file cardText.toUTF8) ∧
    Silent nameText.toUTF8 ∧
    (IsSearched (fullDrive cardText) sourceSettings "/demo"
        ⟨"/demo/components/ai/app.tsx", cardText.toUTF8⟩ ∧
      (discover ((fullDrive cardText).overwritten cardDirectory "app.tsx" nameText.toUTF8)
          sourceSettings "/demo").value ≠
        (discover ((fullDrive cardText).without cardDirectory "app.tsx")
          sourceSettings "/demo").value) ∧
    IsSearched (fullDrive cardText) elsewhereSettings "/app"
        ⟨"/demo/components/ai/app.tsx", cardText.toUTF8⟩ ∧
      (discover ((fullDrive cardText).overwritten cardDirectory "app.tsx" nameText.toUTF8)
          elsewhereSettings "/app").value ≠
        (discover ((fullDrive cardText).without cardDirectory "app.tsx")
          elsewhereSettings "/app").value := by
  -- the silent text is the descriptor, or stands behind the root, and so it names the project
  have hparse : (Descriptor.form.parse cardText).toOption = none := rfl
  have hown : "components/ai" ∈ sourceSettings.projectDirectories := by decide
  have helsewhere : "/demo/components/ai" ∈ elsewhereSettings.projectDirectories := by decide
  refine ⟨wellFormed_fullDrive cardText, rfl, silent_nameText,
    ⟨isSearched_linkedDrive hown rfl rfl ?_ (List.mem_cons_self ..) rfl rfl,
      value_discover_fullDrive_ne_of_descriptor⟩,
    isSearched_linkedDrive helsewhere rfl rfl ?_ (List.mem_cons_self ..) rfl rfl,
    value_discover_fullDrive_ne_of_link nameText⟩
  · rw [← fullDrive, ownName?_fullDrive, hparse]
    simp
  · rw [← fullDrive, ownName?_fullDrive_link]
    simp

end Mosaic.Discovery
