import Mosaic.Proofs.Discovery.Build
import Mosaic.Proofs.Discovery.Removal
import Mosaic.Proofs.Files.Linkless

/-!
# Building twice

A build writes its registry into the very tree that the next build searches. Without links the
registry is found under one name only, and if that is neither the name of a source nor that of the
descriptor, nothing that is searched for depends on it: neither how the project is used and called,
nor which places there are, nor what is in them. So the second build finds what the first one has
found, and replaces the registry by one that was made at another time.

* `ScanRules.isSource_congr`: whether a path is that of a source is a matter of its file name.
* `value_scan_withText`, `declarations_withText`, `discover_withText`: what is found does not depend
  on the registry.
* `value_build_eq_ok_iff`: builds that succeed.
* `Manifest.exists_fileText_eq`: the texts of manifests that were made at different times.
* `build_again`: the second build.
-/

namespace Mosaic

/-! ## Texts of manifests -/

namespace Registry.Manifest

/-- The texts of a manifest made at one time or another differ in the time only, which stands at
one place. -/
theorem exists_fileText_eq (manifest : Manifest) : ∃ front back : List Char, ∀ time,
    ({ manifest with generatedAt := time } : Manifest).fileText.toList =
      front ++ Json.quote (String.ofList time.render) ++ back := by
  -- the time is the value of the first member, and nothing after it depends on it
  refine ⟨'\x7b' :: (Json.newline 1 ++ (Json.quote "generated_at" ++ [':', ' '])),
    Json.prettyMembersTail 0 [
      ("version", .string manifest.version),
      ("total_components", .number (.int manifest.totalComponents)),
      ("components", .ofDict (manifest.components.map fun _ entry => entry.toJson)),
      ("sources", .ofDict (manifest.sources.map fun _ types => .array (types.map .string)))] ++
      ['\n'], fun time => ?_⟩
  rw [fileText, toJson, Json.pretty, Json.prettyChars, Json.prettyMembers, Json.prettyChars,
    String.toList_append, String.toList_ofList]
  simp

end Registry.Manifest

namespace Discovery

open Files Registry

/-! ## What is found beside a registry -/

/-- Whether a path is that of a source is a matter of its file name. -/
theorem ScanRules.isSource_congr (rules : ScanRules) {path other : Path}
    (h : path.fileName? = other.fileName?) : rules.isSource path = rules.isSource other := by
  rw [isSource, isSource, Path.extension?, Path.extension?, h]

section

variable {system : System} {settings : Settings} {root : Path} {directory : Location}
  {entries : Entries} {name : String} (hlinkless : system.Linkless)
  (hentries : system.tree.at? directory = some (.directory entries))
  (hinside : ∀ inside, entries.lookup name ≠ some (.directory inside))
include hlinkless hentries hinside

/-- **A search** does not notice a file that is no source. -/
theorem value_scan_withText {rules : ScanRules} (hname : IsName name) (hslash : '/' ∉ name.toList)
    (hsource : ∀ path : Path, path.fileName? = some name → rules.isSource path = false)
    (text : String) (path : Path) (depth : Nat) :
    (scan (system.withText directory entries name text) path depth rules).value =
      (scan system path depth rules).value := by
  have hleft := hlinkless.withText hentries hinside text
  have hfile : (system.withText directory entries name text).tree.at? (directory ++ [name]) =
      some (.file text.toUTF8) := System.at?_withText hentries
  obtain ⟨content?, hlookup⟩ := hlinkless.exists_lookup_eq hentries hinside
  -- a search depends on the file only where it finds the file as a source, and it would find it
  -- under paths of its name only
  have hfilled : FilledAt (fun _ => False) fun content? =>
      (scan ((system.withText directory entries name text).exchanged directory name content?) path
        depth rules).value := by
    refine filledAt_scan hleft.wellFormed hfile (fun place hplace => ?_) (fun hpath hplace => ?_) depth
    · rw [hsource _ (Path.fileName?_join place hname hslash)] at hplace
      cases hplace
    · rw [hsource _ (hleft.denotes_of_resolve hfile hpath).fileName?] at hplace
      cases hplace
  have hsame := hfilled.eq_of_forall_not (fun _ => id) (some text.toUTF8) content?
  -- on the left the file is as it is now, on the right as it was before
  rwa [System.exchanged_some, System.overwritten_self hfile,
    System.exchanged_withText hentries hlookup] at hsame

/-- **The components of a project** do not depend on a file that is neither a source nor the
descriptor. -/
theorem declarations_withText (hname : IsName name) (hslash : '/' ∉ name.toList)
    (hsource : ∀ path : Path, path.fileName? = some name → settings.rules.isSource path = false)
    (hdescriptor : ¬ system.Denotes (root.join settings.descriptor) (directory ++ [name]))
    (text : String) :
    declarations (system.withText directory entries name text) settings root =
      declarations system settings root := by
  have hleft := hlinkless.withText hentries hinside text
  have hfile : (system.withText directory entries name text).tree.at? (directory ++ [name]) =
      some (.file text.toUTF8) := System.at?_withText hentries
  obtain ⟨content?, hlookup⟩ := hlinkless.exists_lookup_eq hentries hinside
  have hback : (system.withText directory entries name text).exchanged directory name content? =
      system := System.exchanged_withText hentries hlookup
  -- the file is no directory, so the ways through the tree are what they were
  have hpassable : Passable (system.withText directory entries name text).tree system.tree := by
    rw [← congrArg System.tree hback]
    exact System.passable_exchanged hfile
  -- neither the descriptor nor the root leads to the file, unless by its own name
  have hplaces : searchedPlaces (system.withText directory entries name text) settings root =
      searchedPlaces system settings root := by
    rw [← congrArg (searchedPlaces · settings root) hback]
    refine (searchedPlaces_exchanged hfile hname hslash (fun hresolve => ?_) fun hresolve => ?_).symm
    · exact hdescriptor ((hleft.denotes_of_resolve hfile hresolve).of_passable hpassable rfl)
    · exact (hleft.denotes_of_resolve hfile hresolve).fileName?
  rw [declarations, declarations, hplaces]
  refine List.flatMap_congr fun place _ => ?_
  rw [declarationsAt, declarationsAt,
    value_scan_withText hlinkless hentries hinside hname hslash hsource]

theorem discover_withText (hname : IsName name) (hslash : '/' ∉ name.toList)
    (hsource : ∀ path : Path, path.fileName? = some name → settings.rules.isSource path = false)
    (hdescriptor : ¬ system.Denotes (root.join settings.descriptor) (directory ++ [name]))
    (text : String) :
    (discover (system.withText directory entries name text) settings root).value =
      (discover system settings root).value :=
  value_discover_congr
    (declarations_withText hlinkless hentries hinside hname hslash hsource hdescriptor text)

end

/-! ## The second build -/

section

variable {system left : System} {settings : Settings} {root : Path} {now : Time.Timestamp}
  {manifest : Manifest}

/-- **A build succeeds** if there is something to be found and the registry can be put where it
belongs. -/
theorem value_build_eq_ok_iff :
    (build system settings root now).value = .ok (manifest, left) ↔
      ∃ components, (discover system settings root).value = .ok components ∧
        manifest = .ofComponents now components ∧
        system.replaceFile (settings.outputPath root) manifest.pieces = .ok left := by
  unfold build
  rw [Traced.value_bind]
  -- a build that finds nothing writes nothing, and else the outcome is that of replacing the file
  cases (discover system settings root).value with
  | error error => exact iff_of_false (by rintro ⟨⟩) (by rintro ⟨components, ⟨⟩, -⟩)
  | ok components =>
    dsimp only
    rw [Manifest.write]
    cases hreplace : system.replaceFile (settings.outputPath root)
        (Manifest.ofComponents now components).pieces with
    | error fault =>
      refine iff_of_false (by rintro ⟨⟩) ?_
      rintro ⟨others, hothers, rfl, hwritten⟩
      rw [← Except.ok.inj hothers, hreplace] at hwritten
      cases hwritten
    | ok written =>
      constructor
      · intro h
        obtain ⟨rfl, rfl⟩ := Prod.mk.inj (Except.ok.inj h)
        exact ⟨components, rfl, rfl, hreplace⟩
      · rintro ⟨others, hothers, rfl, hwritten⟩
        rw [← Except.ok.inj hothers, hreplace] at hwritten
        rw [← Except.ok.inj hothers, ← Except.ok.inj hwritten]
        rfl

/-- **Building twice.** Without links, and with a registry that is neither a source nor the
descriptor, a build that succeeds can be repeated on what it leaves. The second one returns the same
manifest but for its time, and replaces the registry by a text that differs from the first in the
time only. Nothing else changes. -/
theorem build_again (hlinkless : system.Linkless)
    (hdescriptor : ∀ location, system.Denotes (settings.outputPath root) location →
      ¬ system.Denotes (root.join settings.descriptor) location)
    (hextension : settings.rules.isSource (settings.outputPath root) = false)
    (hbuild : (build system settings root now).value = .ok (manifest, left))
    (now' : Time.Timestamp) :
    ∃ again, (build left settings root now').value =
        .ok ({ manifest with generatedAt := now' }, again) ∧
      left.readText (settings.outputPath root) = .ok manifest.fileText ∧
      again.readText (settings.outputPath root) =
        .ok ({ manifest with generatedAt := now' } : Manifest).fileText ∧
      (∃ front back : List Char,
        manifest.fileText.toList =
          front ++ Json.quote (String.ofList now.render) ++ back ∧
        ({ manifest with generatedAt := now' } : Manifest).fileText.toList =
          front ++ Json.quote (String.ofList now'.render) ++ back) ∧
      ∃ location, left.resolve (settings.outputPath root) true = .ok location ∧
        again.resolve (settings.outputPath root) true = .ok location ∧
        (∀ other, other ≠ location → again.tree.see? other = left.tree.see? other) ∧
        again.workingDirectory = left.workingDirectory := by
  obtain ⟨components, hdiscover, rfl, hreplace⟩ := value_build_eq_ok_iff.mp hbuild
  obtain ⟨directory, entries, name, hresolve, hentries, htarget, hinside, rfl⟩ :=
    System.replaceFile_eq_ok_iff.mp hreplace
  rw [Manifest.join_pieces]
  obtain ⟨hname, hslash⟩ := System.isName_of_targetName htarget
  -- the registry has a name that neither the descriptor nor a source has
  have hdenotes : system.Denotes (settings.outputPath root) (directory ++ [name]) :=
    System.denotes_of_targetName htarget hresolve hentries
  have hsource : ∀ path : Path, path.fileName? = some name → settings.rules.isSource path = false := by
    intro path hpath
    rw [settings.rules.isSource_congr (hpath.trans hdenotes.fileName?.symm), hextension]
  -- so that the same is discovered, and the same file is replaced
  have hdiscover' : ∀ text, (discover (system.withText directory entries name text) settings root).value =
      .ok components := by
    intro text
    rw [discover_withText hlinkless hentries hinside hname hslash hsource (hdescriptor _ hdenotes),
      hdiscover]
  have hreplace' : ∀ text, (system.withText directory entries name text).replaceFile
      (settings.outputPath root) (Manifest.ofComponents now' components).pieces =
        .ok (system.withText directory entries name (Manifest.ofComponents now' components).fileText) := by
    intro text
    rw [hlinkless.replaceFile_withText htarget hresolve hentries hinside, Manifest.join_pieces]
  -- the registry is read under its path, whatever is in it
  have hplace : ∀ text, (system.withText directory entries name text).resolve
      (settings.outputPath root) true = .ok (directory ++ [name]) := fun text =>
    System.resolve_path_withText hentries htarget
      (System.resolve_withText hentries hinside (hlinkless.lookup_ne_link hentries) hentries hresolve)
  have hmanifest : ∀ time, ({ Manifest.ofComponents now components with generatedAt := time } : Manifest) =
      .ofComponents time components := fun _ => rfl
  obtain ⟨front, back, htext⟩ := (Manifest.ofComponents now components).exists_fileText_eq
  simp only [hmanifest] at htext ⊢
  refine ⟨system.withText directory entries name (Manifest.ofComponents now' components).fileText,
    ?_, ?_, ?_, ⟨front, back, ?_, ?_⟩, directory ++ [name], hplace _, hplace _, fun other hother => ?_, ?_⟩
  · -- the second build succeeds as the first one did
    exact value_build_eq_ok_iff.mpr ⟨components, hdiscover' _, rfl, hreplace' _⟩
  · exact System.readText_withText hentries (hplace _)
  · exact System.readText_withText hentries (hplace _)
  · exact htext now
  · exact htext now'
  · rw [System.see?_withText hentries hinside hother, System.see?_withText hentries hinside hother]
  · rw [System.workingDirectory_withText, System.workingDirectory_withText]

end

/-! ### A project with one component -/

/-- A drive with a project that has one source, and neither a descriptor nor a registry. -/
def plainDrive (content : ByteArray) : System where
  tree := .directory [("demo", .directory [("components", .directory [("ai",
    .directory [("card.tsx", .file content)])])])]

theorem linkless_plainDrive (content : ByteArray) : (plainDrive content).Linkless where
  wellFormed := by
    simp [plainDrive, FileTree.WellFormed, FileTree.WellFormedEntries]
  no_link := by
    have hfile : ∀ location target, (FileTree.file content).at? location ≠ some (.link target) := by
      intro location target
      cases location with
      | nil =>
        rw [FileTree.at?_nil]
        simp
      | cons first rest =>
        rw [FileTree.at?_cons, FileTree.child?_file]
        simp
    exact FileTree.no_link_of_singleton (FileTree.no_link_of_singleton
      (FileTree.no_link_of_singleton (FileTree.no_link_of_singleton hfile)))
  working := ⟨_, rfl⟩

theorem isSearched_plainDrive (content : ByteArray) :
    IsSearched (plainDrive content) {} "/demo" ⟨"/demo/components/ai/card.tsx", content⟩ := by
  have hdescriptor : (plainDrive content).lookup (Path.join "/demo" (Settings.descriptor {})) true =
      .error .missing := by
    show (plainDrive content).lookup "/demo/package.json" true = _
    cbv
  have hlookup : ∀ followsLast, (plainDrive content).lookup "/demo/components/ai" followsLast =
      .ok (.directory [("card.tsx", .file content)]) := by
    intro followsLast
    cases followsLast <;> cbv
  have hname : ownName? (plainDrive content) {} "/demo" ≠ some (Settings.libraryName {}) := by
    rw [ownName?_of_lookup hdescriptor]
    simp
  have hdirectory : "components/ai" ∈ Settings.projectDirectories {} := by decide
  have hthere : (plainDrive content).isDirectory (Path.join "/demo" "components/ai") = true := by
    show (plainDrive content).isDirectory "/demo/components/ai" = true
    rw [System.isDirectory, hlookup]
    rfl
  refine isSearched_of_own hname hdirectory hthere ?_
  show _ ∈ (scan (plainDrive content) "/demo/components/ai" _ _).value
  rw [value_scan, hlookup]
  exact mem_sourcesOf_directory (List.mem_singleton_self _) rfl rfl

/-- The project is built twice, one second after the other. -/
theorem build_again_plainDrive :
    (plainDrive cardText.toUTF8).Linkless ∧
    (∀ location, (plainDrive cardText.toUTF8).Denotes (Settings.outputPath {} "/demo") location →
      ¬ (plainDrive cardText.toUTF8).Denotes (Path.join "/demo" (Settings.descriptor {})) location) ∧
    ScanRules.isSource {} (Settings.outputPath {} "/demo") = false ∧
    ∃ manifest left again,
      (build (plainDrive cardText.toUTF8) {} "/demo" .epoch).value = .ok (manifest, left) ∧
      (build left {} "/demo" { Time.Timestamp.epoch with second := 1 }).value =
        .ok ({ manifest with generatedAt := { Time.Timestamp.epoch with second := 1 } }, again) := by
  have hlinkless := linkless_plainDrive cardText.toUTF8
  have hdescriptor : ∀ location,
      (plainDrive cardText.toUTF8).Denotes (Settings.outputPath {} "/demo") location →
      ¬ (plainDrive cardText.toUTF8).Denotes (Path.join "/demo" (Settings.descriptor {})) location := by
    intro location houtput hother
    -- the two files have different names
    obtain ⟨above, directory, name, -, -, -, rfl⟩ := id houtput
    have hnames := houtput.fileName?.trans hother.fileName?.symm
    exact absurd hnames (by decide)
  have hextension : ScanRules.isSource {} (Settings.outputPath {} "/demo") = false := rfl
  have hfound : declarations (plainDrive cardText.toUTF8) {} "/demo" ≠ [] :=
    declarations_ne_nil (isSearched_plainDrive _) fun source => declaration?_cardText source _ _
  have hresolve : ∀ content,
      (plainDrive content).resolve (System.directoryOf (Settings.outputPath {} "/demo")) true =
        .ok ["demo"] := by
    intro content
    show (plainDrive content).resolve "/demo" true = _
    cbv
  have htarget : (plainDrive cardText.toUTF8).targetName (Settings.outputPath {} "/demo") =
      .ok "ai.json" := rfl
  have hreplace : (plainDrive cardText.toUTF8).replaceFile (Settings.outputPath {} "/demo")
      (Manifest.ofComponents .epoch
        (firsts (declarations (plainDrive cardText.toUTF8) {} "/demo"))).pieces = .ok _ :=
    System.replaceFile_eq_ok (hresolve _) rfl htarget (by simp [List.lookup])
  have hbuild := value_build_eq_ok_iff.mpr ⟨_, discover_of_ne_nil hfound, rfl, hreplace⟩
  obtain ⟨again, hagain, -⟩ :=
    build_again hlinkless hdescriptor hextension hbuild { Time.Timestamp.epoch with second := 1 }
  exact ⟨hlinkless, hdescriptor, hextension, _, _, again, hbuild, hagain⟩

end Discovery

end Mosaic
