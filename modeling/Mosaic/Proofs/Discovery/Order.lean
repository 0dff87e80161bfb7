import Mosaic.Proofs.Discovery.Removal
import Mosaic.Proofs.Files.Reordered

/-!
# Discovery does not depend on the order of listings

The order in which directories list their entries decides about nothing: searches put entries in
the order of their names, and packages are put in the order of theirs before the first ones are
taken. So a project is discovered in the same way in all trees that differ in such orders only,
down to what is reported on the way.

* `inNameOrder_perm`: groups with distinct names, in any order.
* `sourcesOf_reordered`, `scan_reordered`: a search.
* `packages_perm`, `packageNames_reordered`: the packages that are searched.
* `survey_reordered`: all of a project.
* `discover_reordered`: discovery.
-/

namespace Mosaic.Discovery

open Files Registry

/-! ## Sources -/

section

variable {α : Type}

/-- Groups with distinct names are put in the same order, whatever order they come in. -/
theorem inNameOrder_perm {groups groups' : List (String × List α)} (hperm : groups.Perm groups')
    (hdistinct : (groups.map Prod.fst).Nodup) : inNameOrder groups = inNameOrder groups' := by
  have hsame : (groups.mergeSort fun a b => a.1 ≤ b.1).Perm
      (groups'.mergeSort fun a b => a.1 ≤ b.1) :=
    ((List.mergeSort_perm _ _).trans hperm).trans (List.mergeSort_perm _ _).symm
  have hnames : ((groups.mergeSort fun a b => a.1 ≤ b.1).map Prod.fst).Nodup :=
    ((List.mergeSort_perm _ _).map Prod.fst).symm.nodup hdistinct
  -- both are sorted and hold the same, so they are equal: no two groups share a name
  rw [inNameOrder, inNameOrder, eq_of_pairwise_names hnames hsame (pairwise_mergeSort_names _)
    (pairwise_mergeSort_names _)]

end

section

variable {rules : ScanRules} {place : Path} {depth : Nat} {entries entries' : Entries}

/-- A group is made of each entry that is not skipped. -/
theorem mem_sourceGroups {group : String × List SourceFile} :
    group ∈ sourceGroups rules place depth entries ↔ rules.skips group.1 = false ∧
      ∃ node, (group.1, node) ∈ entries ∧
        group.2 = sourcesOf rules (place.join group.1) depth node := by
  rw [sourceGroups_eq, List.mem_map]
  constructor
  · rintro ⟨⟨name, node⟩, hentry, rfl⟩
    rw [List.mem_filter, Bool.not_eq_true'] at hentry
    exact ⟨hentry.2, node, hentry.1, rfl⟩
  · rintro ⟨hkept, node, hentry, hsources⟩
    refine ⟨(group.1, node), ?_, Prod.ext rfl hsources.symm⟩
    rw [List.mem_filter, Bool.not_eq_true']
    exact ⟨hentry, hkept⟩

/-- Groups have distinct names where the entries have. -/
theorem nodup_keys_sourceGroups (hdistinct : (entries.map Prod.fst).Nodup) :
    ((sourceGroups rules place depth entries).map Prod.fst).Nodup := by
  rw [sourceGroups_eq, List.map_map]
  exact hdistinct.sublist (List.filter_sublist.map Prod.fst)

/-- The groups of two directories with the same names, if equal names have the same sources. -/
theorem sourceGroups_perm (hdistinct : (entries.map Prod.fst).Nodup)
    (hnames : (entries.map Prod.fst).Perm (entries'.map Prod.fst))
    (hnodes : ∀ name node node', entries.lookup name = some node →
      entries'.lookup name = some node' →
      sourcesOf rules (place.join name) depth node' = sourcesOf rules (place.join name) depth node) :
    (sourceGroups rules place depth entries).Perm (sourceGroups rules place depth entries') := by
  have hdistinct' : (entries'.map Prod.fst).Nodup := hnames.nodup hdistinct
  have hnodup : (sourceGroups rules place depth entries).Nodup :=
    (nodup_keys_sourceGroups hdistinct).of_map
  have hnodup' : (sourceGroups rules place depth entries').Nodup :=
    (nodup_keys_sourceGroups hdistinct').of_map
  -- no group occurs twice, so it is enough that the same groups occur
  refine (List.perm_ext_iff_of_nodup hnodup hnodup').mpr fun group => ?_
  rw [mem_sourceGroups, mem_sourceGroups]
  refine and_congr_right fun _ => ?_
  constructor
  · rintro ⟨node, hentry, hsources⟩
    have hname : group.1 ∈ entries'.map Prod.fst :=
      hnames.subset (List.mem_map_of_mem hentry)
    obtain ⟨node', hnode'⟩ := Option.isSome_iff_exists.mp (lookup_isSome_iff_mem_keys.mpr hname)
    have hsame := hnodes group.1 node node' (lookup_of_mem hdistinct hentry) hnode'
    exact ⟨node', mem_of_lookup hnode', hsources.trans hsame.symm⟩
  · rintro ⟨node', hentry', hsources⟩
    have hname : group.1 ∈ entries.map Prod.fst :=
      hnames.symm.subset (List.mem_map_of_mem hentry')
    obtain ⟨node, hnode⟩ := Option.isSome_iff_exists.mp (lookup_isSome_iff_mem_keys.mpr hname)
    have hsame := hnodes group.1 node node' hnode (lookup_of_mem hdistinct' hentry')
    exact ⟨node, mem_of_lookup hnode, hsources.trans hsame⟩

end

/-- **The sources at or below a node** do not depend on the order of its directories. -/
theorem sourcesOf_reordered (rules : ScanRules) {node node' : FileTree}
    (h : node.Reordered node') (hwf : node.WellFormed) (path : Path) (depth : Nat) :
    sourcesOf rules path depth node' = sourcesOf rules path depth node := by
  -- one case for each kind of node; a directory has its entries in another order, and they have
  -- theirs in another order
  induction h generalizing path depth with
  | file content => rfl
  | link target => rfl
  | @directory entries entries' hnames _ ih =>
    rw [FileTree.WellFormed] at hwf
    cases depth with
    | zero => rw [sourcesOf, sourcesOf]
    | succ depth =>
      have hgroups : (sourceGroups rules path depth entries).Perm
          (sourceGroups rules path depth entries') := by
        refine sourceGroups_perm hwf.1 hnames fun name node node' hnode hnode' => ?_
        exact ih name node node' hnode hnode' (hwf.2.of_lookup hnode) (path.join name) depth
      rw [sourcesOf, sourcesOf, inNameOrder_perm hgroups (nodup_keys_sourceGroups hwf.1)]

/-! ## A project -/

/-- Names are put in the same order, whatever order they come in. -/
theorem mergeSort_eq_of_perm {names names' : List String} (hperm : names.Perm names') :
    names.mergeSort = names'.mergeSort := by
  have hsame : names.mergeSort.Perm names'.mergeSort :=
    ((List.mergeSort_perm names _).trans hperm).trans (List.mergeSort_perm names' _).symm
  exact hsame.eq_of_pairwise' (List.pairwise_mergeSort' _ _) (List.pairwise_mergeSort' _ _)

section

variable {system : System} {other : FileTree} (hwf : system.tree.WellFormed)
  (h : system.tree.Reordered other)
include h

include hwf in
/-- **A search** finds the same, or fails in the same way. -/
theorem scan_reordered (path : Path) (depth : Nat) (rules : ScanRules) :
    scan (system.withTree other) path depth rules = scan system path depth rules := by
  rw [scan, scan]
  rcases System.lookup_reordered h path false with
    ⟨fault, hlookup, hlookup'⟩ | ⟨location, node, node', hat, hnode, hlookup, hlookup'⟩
  · rw [hlookup, hlookup']
  · have hsources := sourcesOf_reordered rules hnode (hwf.of_at? hat) path (depth + 1)
    rw [hlookup, hlookup']
    cases hnode with
    | file content => rfl
    | directory hnames hnodes => exact congrArg pure hsources
    | link target =>
      -- the search begins where the link leads
      dsimp only
      rcases System.lookup_reordered h path true with
        ⟨fault, hlookup, hlookup'⟩ | ⟨location, goal, goal', hat, hgoal, hlookup, hlookup'⟩
      · rw [hlookup, hlookup']
      · have hsources := sourcesOf_reordered rules hgoal (hwf.of_at? hat) path (depth + 1)
        rw [hlookup, hlookup']
        cases hgoal with
        | file content | link target => rfl
        | directory hnames hnodes => exact congrArg pure hsources

/-- What the descriptor of a project declares. -/
theorem declaredName?_reordered (root descriptor : Path) :
    declaredName? (system.withTree other) root descriptor =
      declaredName? system root descriptor := by
  rw [declaredName?, declaredName?, System.readText_reordered h]

/-- The order of the entries has no part in what a project is taken for. -/
theorem detect_reordered (root : Path) (settings : Settings) :
    Project.detect (system.withTree other) root settings =
      Project.detect system root settings := by
  rw [Project.detect, Project.detect, projectName, projectName, declaredName?_reordered h,
    System.baseName?_reordered h]

/-- The packages come in the order of their names, of which the first ones are taken. -/
theorem packages_perm (settings : Settings) (modules : Path) {entries entries' : Entries}
    (hnames : (entries.map Prod.fst).Perm (entries'.map Prod.fst)) :
    packages (system.withTree other) settings modules entries' =
      packages system settings modules entries := by
  -- the limit is applied to sorted names, so both take the same ones
  rw [packages, packages]
  simp only [System.isDirectory_reordered h]
  rw [mergeSort_eq_of_perm (hnames.filter _)]

/-- Packages are named in their own order, not in that of the listing. -/
theorem packageNames_reordered (settings : Settings) (root : Path) :
    packageNames (system.withTree other) settings root = packageNames system settings root := by
  -- whether a name is that of a package does not depend on the order either
  have hpackage : isPackage (system.withTree other) settings root =
      isPackage system settings root := by
    funext name
    rw [isPackage, isPackage, System.isDirectory_reordered h]
  rw [packageNames, packageNames, hpackage]
  rcases System.listDirectory_reordered h (packageDirectory settings root) with
    ⟨fault, hlist, hlist'⟩ | ⟨entries, entries', hlist, hlist', hnames⟩
  · rw [hlist, hlist']
  · rw [hlist, hlist']
    exact (mergeSort_eq_of_perm (hnames.filter _)).symm

include hwf in
/-- The files of a place come out sorted, so that a place is scanned alike. -/
theorem scanInto_reordered (settings : Settings) (root directory : Path) (depth : Nat)
    (source : String) :
    scanInto (system.withTree other) settings root directory depth source =
      scanInto system settings root directory depth source := by
  rw [scanInto, scanInto, scan_reordered hwf h]

include hwf in
/-- The library is scanned alike. -/
theorem scanLibrary_reordered (settings : Settings) (root : Path) :
    scanLibrary (system.withTree other) settings root = scanLibrary system settings root := by
  rw [scanLibrary, scanLibrary]
  simp only [System.isDirectory_reordered h, scanInto_reordered hwf h]

include hwf in
/-- The directories of a project are scanned alike. -/
theorem scanProject_reordered (settings : Settings) (root : Path) (name : String)
    (directories : List Path) :
    scanProject (system.withTree other) settings root name directories =
      scanProject system settings root name directories := by
  induction directories with
  | nil => rfl
  | cons directory rest ih =>
    rw [scanProject, scanProject, ih]
    simp only [System.isDirectory_reordered h, scanInto_reordered hwf h]

include hwf in
/-- The places of the packages are scanned alike. -/
theorem scanPackages_reordered (settings : Settings) (root modules : Path) (names : List String) :
    scanPackages (system.withTree other) settings root modules names =
      scanPackages system settings root modules names := by
  induction names with
  | nil => rfl
  | cons name rest ih =>
    rw [scanPackages, scanPackages, ih, componentPlace?, componentPlace?]
    simp only [System.isDirectory_reordered h, scanInto_reordered hwf h]

include hwf in
/-- With the limit, too, the same packages are searched: it counts them as they are sorted. -/
theorem scanEcosystem_reordered (settings : Settings) (root : Path) :
    scanEcosystem (system.withTree other) settings root = scanEcosystem system settings root := by
  rw [scanEcosystem, scanEcosystem]
  rcases System.listDirectory_reordered h (root.join settings.rules.dependencyDirectory) with
    ⟨fault, hlist, hlist'⟩ | ⟨entries, entries', hlist, hlist', hnames⟩
  · rw [hlist, hlist']
  · rw [hlist, hlist']
    dsimp only
    rw [packages_perm h settings _ hnames, scanPackages_reordered hwf h]

include hwf in
/-- **A survey** finds the same components in the same order. -/
theorem survey_reordered (settings : Settings) (root : Path) :
    survey (system.withTree other) settings root = survey system settings root := by
  rw [survey, survey, detect_reordered h]
  simp only [scanInto_reordered hwf h, scanLibrary_reordered hwf h, scanProject_reordered hwf h,
    scanEcosystem_reordered hwf h]

include hwf in
/-- **Discovery does not depend on the order of listings.** In two trees that differ only in the
orders in which their directories list their entries, it finds the same components in the same
order from the same sources, or nothing in both, and reports the same. The packages that it
searches and the components among which it keeps the first of each type are the same as well. -/
theorem discover_reordered (settings : Settings) (root : Path) :
    discover (system.withTree other) settings root = discover system settings root ∧
    (packageNames (system.withTree other) settings root).take settings.ecosystemLimit =
      (packageNames system settings root).take settings.ecosystemLimit ∧
    declarations (system.withTree other) settings root = declarations system settings root := by
  have hsurvey := survey_reordered hwf h settings root
  refine ⟨?_, ?_, ?_⟩
  · rw [discover, discover, hsurvey]
  · rw [packageNames_reordered h]
  · rw [← value_survey, ← value_survey, hsurvey]

end

/-! ### A project with two packages -/

/-- A file in the place of a package is found, if the package is among those that are searched. -/
theorem isSearched_of_package {system : System} {settings : Settings} {root : Path} {name : String}
    {place : SearchedPlace} {file : SourceFile}
    (hown : ownName? system settings root ≠ some settings.libraryName)
    (hecosystem : settings.ecosystem = true)
    (hpackage : name ∈ (packageNames system settings root).take settings.ecosystemLimit)
    (hplace : (placesOf settings root name).find? (isThere system) = some place)
    (hfile : file ∈ (scan system place.directory place.depth settings.rules).value) :
    IsSearched system settings root file := by
  refine ⟨place, ?_, hfile⟩
  rw [searchedPlaces, if_neg hown, hecosystem, if_pos rfl]
  exact List.mem_append_right _ (List.mem_filterMap.mpr ⟨name, hpackage, hplace⟩)

/-- A drive that lists the packages of a project in the given order. -/
def packagesDrive (names : List String) (content : ByteArray) : System where
  tree := .directory [("node_modules", .directory (names.map (·, cardPackage content)))]

/-- The settings of a project that searches one package. -/
def onePackage : Settings := { ecosystemLimit := 1 }

/-- Listing the packages in another order is reordering the drive. -/
theorem reordered_packagesDrive {names names' : List String} (hperm : names.Perm names')
    (hdistinct : names.Nodup) (content : ByteArray) :
    (packagesDrive names content).tree.Reordered (packagesDrive names' content).tree := by
  have hkeys : ((names.map (·, cardPackage content)).map Prod.fst).Nodup := by
    rw [List.map_map]
    exact hdistinct.map fun _ _ => id
  have hpackages : (FileTree.directory (names.map (·, cardPackage content))).Reordered
      (.directory (names'.map (·, cardPackage content))) := .of_perm (hperm.map _) hkeys
  have hentries : List.Forall₂
      (fun entry entry' : String × FileTree => entry.1 = entry'.1 ∧ entry.2.Reordered entry'.2)
      [("node_modules", .directory (names.map (·, cardPackage content)))]
      [("node_modules", .directory (names'.map (·, cardPackage content)))] :=
    .cons ⟨rfl, hpackages⟩ .nil
  exact .of_entries hentries (List.Perm.refl _) (List.nodup_singleton "node_modules")

/-- Which of the places of the two packages are there. -/
theorem isDirectory_packagesDrive (content : ByteArray) :
    let drive := packagesDrive ["beta", "alpha"] content
    drive.isDirectory "/node_modules/beta" = true ∧
    drive.isDirectory "/node_modules/alpha" = true ∧
    drive.isDirectory "/node_modules/alpha/src/components/ai" = false ∧
    drive.isDirectory "/node_modules/alpha/src/ai" = true := by
  refine ⟨?_, ?_, ?_, ?_⟩ <;> cbv

/-- The packages come out sorted, though the drive lists them the other way round. -/
theorem packageNames_packagesDrive (content : ByteArray) :
    packageNames (packagesDrive ["beta", "alpha"] content) onePackage "/" = ["alpha", "beta"] := by
  have hlist : (packagesDrive ["beta", "alpha"] content).listDirectory
      (packageDirectory onePackage "/") =
        .ok [("beta", cardPackage content), ("alpha", cardPackage content)] := by
    show (packagesDrive ["beta", "alpha"] content).listDirectory "/node_modules" = _
    cbv
  obtain ⟨hbeta, halpha, -, -⟩ := isDirectory_packagesDrive content
  have hbeta' : isPackage (packagesDrive ["beta", "alpha"] content) onePackage "/" "beta" = true := by
    show (System.isDirectory _ "/node_modules/beta" && _ && _) = true
    rw [hbeta]
    rfl
  have halpha' : isPackage (packagesDrive ["beta", "alpha"] content) onePackage "/" "alpha" = true := by
    show (System.isDirectory _ "/node_modules/alpha" && _ && _) = true
    rw [halpha]
    rfl
  -- both are packages, and they are listed the other way round
  have hpackages : ["beta", "alpha"].filter
      (isPackage (packagesDrive ["beta", "alpha"] content) onePackage "/") = ["beta", "alpha"] := by
    rw [List.filter_cons_of_pos hbeta', List.filter_cons_of_pos halpha', List.filter_nil]
  have hsorted : ["beta", "alpha"].mergeSort = ["alpha", "beta"] := by
    rw [mergeSort_eq_of_perm (.swap "alpha" "beta" [])]
    exact List.mergeSort_of_pairwise (by simp)
  rw [packageNames, hlist]
  exact (congrArg List.mergeSort hpackages).trans hsorted

/-- The source of the first package is found. -/
theorem isSearched_packagesDrive (content : ByteArray) :
    IsSearched (packagesDrive ["beta", "alpha"] content) onePackage "/"
      ⟨"/node_modules/alpha/src/ai/card.tsx", content⟩ := by
  -- without a descriptor the project is not the library
  have hdescriptor : (packagesDrive ["beta", "alpha"] content).lookup
      (Path.join "/" onePackage.descriptor) true = .error .missing := by
    show (packagesDrive ["beta", "alpha"] content).lookup "/package.json" true = _
    cbv
  have hown : ownName? (packagesDrive ["beta", "alpha"] content) onePackage "/" ≠
      some onePackage.libraryName := by
    rw [ownName?_of_lookup hdescriptor]
    simp
  have hpackage : "alpha" ∈ (packageNames (packagesDrive ["beta", "alpha"] content) onePackage
      "/").take onePackage.ecosystemLimit := by
    rw [packageNames_packagesDrive]
    decide
  -- the first place of the package is not there, the second one is
  have hplace : (placesOf onePackage "/" "alpha").find?
      (isThere (packagesDrive ["beta", "alpha"] content)) =
        some ⟨⟨"/node_modules/alpha/src/ai", 1⟩, "alpha"⟩ := by
    obtain ⟨-, -, hfirst, hsecond⟩ := isDirectory_packagesDrive content
    show [SearchedPlace.mk ⟨"/node_modules/alpha/src/components/ai", 2⟩ "alpha",
      ⟨⟨"/node_modules/alpha/src/ai", 1⟩, "alpha"⟩].find? _ = _
    rw [List.find?_cons, isThere, hfirst, List.find?_cons, isThere, hsecond]
  have hlookup : ∀ followsLast, (packagesDrive ["beta", "alpha"] content).lookup
      "/node_modules/alpha/src/ai" followsLast = .ok (.directory [("card.tsx", .file content)]) := by
    intro followsLast
    cases followsLast <;> cbv
  refine isSearched_of_package hown rfl hpackage hplace ?_
  rw [value_scan, hlookup]
  exact mem_sourcesOf_directory (List.mem_singleton_self _) rfl rfl

/-- One of two packages is searched, and it is the same one whichever is listed first. -/
theorem discover_packagesDrive :
    (packagesDrive ["beta", "alpha"] cardText.toUTF8).tree.WellFormed ∧
    (packagesDrive ["beta", "alpha"] cardText.toUTF8).tree.Reordered
      (packagesDrive ["alpha", "beta"] cardText.toUTF8).tree ∧
    (packageNames (packagesDrive ["beta", "alpha"] cardText.toUTF8) onePackage "/").take
      onePackage.ecosystemLimit = ["alpha"] ∧
    ∃ components,
      (discover (packagesDrive ["beta", "alpha"] cardText.toUTF8) onePackage "/").value =
        .ok components ∧
      (discover (packagesDrive ["alpha", "beta"] cardText.toUTF8) onePackage "/").value =
        .ok components := by
  have hwf : (packagesDrive ["beta", "alpha"] cardText.toUTF8).tree.WellFormed := by
    simp [packagesDrive, cardPackage, FileTree.WellFormed, FileTree.WellFormedEntries]
  have hreordered : (packagesDrive ["beta", "alpha"] cardText.toUTF8).tree.Reordered
      (packagesDrive ["alpha", "beta"] cardText.toUTF8).tree :=
    reordered_packagesDrive (.swap ..) (by decide) _
  -- so that the equal results are not two errors
  have hfound : declarations (packagesDrive ["beta", "alpha"] cardText.toUTF8) onePackage "/" ≠ [] :=
    declarations_ne_nil (isSearched_packagesDrive _) fun source => declaration?_cardText source _ _
  have hsame : discover (packagesDrive ["alpha", "beta"] cardText.toUTF8) onePackage "/" =
      discover (packagesDrive ["beta", "alpha"] cardText.toUTF8) onePackage "/" :=
    (discover_reordered hwf hreordered onePackage "/").1
  refine ⟨hwf, hreordered, ?_, _, discover_of_ne_nil hfound, ?_⟩
  · rw [packageNames_packagesDrive]
    rfl
  · rw [hsame]
    exact discover_of_ne_nil hfound

end Mosaic.Discovery
