import Mosaic.Proofs.Discovery.Survey
import Mosaic.Proofs.Files.Attempt
import Mosaic.Proofs.Registry.Sources
import Mosaic.Proofs.Registry.Storage

/-!
# What a build leaves behind

A build finds components and writes their registry, or it changes nothing: not if there is
nothing to be found, not if the registry cannot be put where it belongs, and not if the writing
is disrupted, after whatever step.

* `buildUnder`: a build that may be disrupted, with the system that it leaves even if it fails.
* `value_build`: a build that is not disrupted.
* `Written`: what a build that succeeds has done.
* `build_all_or_nothing`: there is nothing in between.
-/

namespace Mosaic.Discovery

open Files Registry

/-- A build whose attempt to write the registry may be disrupted, and the system that it
leaves. -/
def buildUnder (disruption : Option (Nat × Fault)) (system : System) (settings : Settings)
    (root : Path) (now : Time.Timestamp) : Except DiscoveryError Manifest × System :=
  match (discover system settings root).value with
  | .error error => (.error error, system)
  | .ok components =>
    let manifest := Manifest.ofComponents now components
    let path := settings.outputPath root
    match system.attempt disruption path manifest.pieces with
    | (.ok (), left) => (.ok manifest, left)
    | (.error fault, left) => (.error (.manifest (.inaccessible path fault)), left)

/-- What a build has done that returns a manifest. -/
structure Written (system : System) (settings : Settings) (root : Path) (manifest : Manifest)
    (left : System) : Prop where
  positive : 0 < manifest.totalComponents
  total_eq : manifest.totalComponents = manifest.components.size
  /-- The registry stands under the last name of its path, in the directory of its path, and
  nothing else has changed. -/
  file : ∃ directory name,
    system.resolve (System.directoryOf (settings.outputPath root)) true = .ok directory ∧
    system.targetName (settings.outputPath root) = .ok name ∧
    left.tree.at? (directory ++ [name]) = some (.file (manifest.toJson.pretty ++ "\n").toUTF8) ∧
    (∀ other, other ≠ directory ++ [name] → left.tree.see? other = system.tree.see? other) ∧
    -- it is read through every path that leads there
    (∀ path, left.resolve path true = .ok (directory ++ [name]) →
      left.readText path = .ok (manifest.toJson.pretty ++ "\n")) ∧
    -- and so does its own path, unless the file took the place of a link that the path passes
    ((∀ target, system.tree.at? (directory ++ [name]) = some (.link target) →
        left.resolve (System.directoryOf (settings.outputPath root)) true = .ok directory) →
      left.resolve (settings.outputPath root) true = .ok (directory ++ [name]))
  workingDirectory : left.workingDirectory = system.workingDirectory

variable (system : System) (settings : Settings) (root : Path) (now : Time.Timestamp)

/-- **A build** is one that nothing disrupts. -/
theorem value_build :
    (build system settings root now).value =
      match buildUnder none system settings root now with
      | (.ok manifest, left) => .ok (manifest, left)
      | (.error error, _) => .error error := by
  unfold build buildUnder
  rw [Traced.value_bind]
  cases (discover system settings root).value with
  | error error => rfl
  | ok components =>
    dsimp only
    rw [Manifest.write, System.replaceFile_eq_attempt]
    -- the attempt either succeeds or fails, and both report it in the same way
    rcases system.attempt none (settings.outputPath root)
      (Manifest.ofComponents now components).pieces with ⟨fault | ⟨⟩, left⟩ <;> rfl

variable {system settings root now} {disruption : Option (Nat × Fault)}

/-- What is returned has been discovered and written. -/
theorem buildUnder_eq_ok {manifest : Manifest} {left : System}
    (h : buildUnder disruption system settings root now = (.ok manifest, left)) :
    ∃ components, (discover system settings root).value = .ok components ∧
      manifest = Manifest.ofComponents now components ∧
      system.attempt disruption (settings.outputPath root) manifest.pieces = (.ok (), left) := by
  unfold buildUnder at h
  split at h
  · cases h
  · next components hcomponents =>
    dsimp only at h
    split at h
    · next after hattempt =>
      obtain ⟨rfl, rfl⟩ : Manifest.ofComponents now components = manifest ∧ after = left := by
        simpa using h
      exact ⟨components, hcomponents, rfl, hattempt⟩
    · cases h

/-- A manifest of discovered components has at least one of them. -/
theorem totalComponents_pos {components : List Component}
    (h : (discover system settings root).value = .ok components) :
    0 < (Manifest.ofComponents now components).totalComponents := by
  by_cases hnone : declarations system settings root = []
  · rw [discover_of_nil hnone] at h
    cases h
  · rw [discover_of_ne_nil hnone] at h
    have hkept : components ≠ [] := by
      rw [← Except.ok.inj h]
      exact mt firsts_eq_nil_iff.mp hnone
    have htypes : (Manifest.ofComponents now components).types ≠ [] := by
      rw [Manifest.types_ofComponents]
      exact mt List.map_eq_nil_iff.mp (mt firsts_eq_nil_iff.mp hkept)
    -- the types are as many as the components that are counted
    have hlength := List.length_pos_iff.mpr htypes
    rwa [Manifest.types, Dict.keys, List.length_map] at hlength

theorem written_of_ok {manifest : Manifest} {left : System}
    (h : buildUnder disruption system settings root now = (.ok manifest, left)) :
    Written system settings root manifest left := by
  obtain ⟨components, hcomponents, rfl, hattempt⟩ := buildUnder_eq_ok h
  obtain ⟨directory, entries, name, hopening, hinside, rfl⟩ := System.attempt_of_ok hattempt
  obtain ⟨hdirectory, hentries, hname⟩ := System.opening_eq_ok_iff.mp hopening
  rw [Manifest.join_pieces]
  refine ⟨totalComponents_pos hcomponents, rfl, ?_, rfl⟩
  have hreplace : system.replaceFile (settings.outputPath root)
      (Manifest.ofComponents now components).pieces = .ok _ :=
    System.replaceFile_eq_ok hdirectory hentries hname hinside
  -- the text is read back in some directory under some name, which are those of the opening
  obtain ⟨place, target, hplace, htarget, hread, hpath⟩ := System.readText_of_replaceFile hreplace
  rw [hdirectory] at hplace
  rw [hname] at htarget
  obtain ⟨rfl, rfl⟩ : directory = place ∧ name = target :=
    ⟨Except.ok.inj hplace, Except.ok.inj htarget⟩
  rw [Manifest.join_pieces] at hread hpath
  exact ⟨directory, name, hdirectory, hname, System.at?_withText hentries,
    fun other hother => System.see?_withText hentries hinside hother, hread, hpath⟩

theorem eq_of_error {error : DiscoveryError} {left : System}
    (h : buildUnder disruption system settings root now = (.error error, left)) :
    left = system := by
  unfold buildUnder at h
  -- either nothing was discovered and nothing attempted, or the attempt has failed
  split at h
  · exact (Prod.mk.inj h).2.symm
  · dsimp only at h
    split at h
    · cases (Prod.mk.inj h).1
    · next fault after hattempt =>
      rw [← (Prod.mk.inj h).2]
      exact System.attempt_of_error hattempt

/-- Nothing but a search without result makes a build report that there are no components. -/
theorem buildUnder_eq_empty_iff {place : Path} :
    (buildUnder disruption system settings root now).1 = .error (.empty place) ↔
      place = root ∧ declarations system settings root = [] := by
  unfold buildUnder
  by_cases hnone : declarations system settings root = []
  · rw [discover_of_nil hnone]
    simp [hnone, eq_comm]
  · rw [discover_of_ne_nil hnone]
    dsimp only
    rcases system.attempt disruption (settings.outputPath root)
      (Manifest.ofComponents now (firsts (declarations system settings root))).pieces
      with ⟨fault | ⟨⟩, left⟩ <;> simp [hnone]

variable (system settings root now)

/-- **A build does all or nothing**, wherever it may be disrupted. It writes the registry that it
returns and changes nothing else, or it fails and changes nothing at all. It reports that there
are no components if no source in the searched places has any, and only then. -/
theorem build_all_or_nothing :
    ((build system settings root now).value =
      match buildUnder none system settings root now with
      | (.ok manifest, left) => .ok (manifest, left)
      | (.error error, _) => .error error) ∧
    ∀ disruption,
      (match buildUnder disruption system settings root now with
        | (.ok manifest, left) => Written system settings root manifest left
        | (.error _, left) => left = system) ∧
      ∀ place, (buildUnder disruption system settings root now).1 = .error (.empty place) ↔
        place = root ∧ ∀ searched ∈ searchedPlaces system settings root,
          ∀ file ∈ (scan system searched.directory searched.depth settings.rules).value,
            ∀ text, System.decode file.content = .ok text →
              (extract text file.path root).value = none := by
  refine ⟨value_build system settings root now, fun disruption => ⟨?_, fun place => ?_⟩⟩
  · -- a build writes all or leaves the system as it was
    split
    · next h => exact written_of_ok h
    · next h => exact eq_of_error h
  · rw [buildUnder_eq_empty_iff, declarations_eq_nil_iff]

end Mosaic.Discovery
