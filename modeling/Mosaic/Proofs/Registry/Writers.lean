import Mosaic.Proofs.Files.Readers
import Mosaic.Proofs.Registry.Storage

/-!
# Manifests that are written at the same time

Any number of manifests are written to the same path at the same time, step by step and in any
order, and any of them may fail after any step. Nobody ever reads a part of a manifest, and the
last one to be done is the one that stays.

* `Manifest.WholeAt`: what is true of the path at a moment.
* `Manifest.write_of_opening_error`: a path that cannot be opened.
* `Manifest.wholeAt_of_reaches`: the path is never seen with a part of a manifest.
-/

namespace Mosaic.Registry

open Files

namespace Manifest

variable {ι : Type} [DecidableEq ι]

/-- What is true at a moment, while manifests are written to a path. The path has been opened
under a name in a directory; a writer is done when it has renamed its scratch file. -/
structure WholeAt (manifests : ι → Manifest) (system : System) (path : Path)
    (directory : Location) (name : String) (place : Workplace ι) : Prop where
  /-- What stands there is what stood there in the beginning, or the whole text of the manifest
  that was the last to be done. -/
  content : (place.within system directory).tree.at? (directory ++ [name]) =
    match place.finished.getLast? with
    | none => system.tree.at? (directory ++ [name])
    | some i => some (.file (manifests i).fileText.toUTF8)
  finished_iff : ∀ i, i ∈ place.finished ↔ (place.writers i).phase = .done
  /-- A writer that fails is not, and never was, among those that are done. -/
  failed : ∀ i fault, (place.writers i).phase = .failed fault → i ∉ place.finished
  /-- Only a writer that gets done changes what stands there. -/
  changed : ∀ i moved, Writer.Moves (place.entries, place.writers i) moved →
    ((place.after i moved).within system directory).tree.at? (directory ++ [name]) ≠
      (place.within system directory).tree.at? (directory ++ [name]) → moved.2.phase = .done
  /-- What could be read in the beginning is read until the first writer is done. -/
  read_before : place.finished = [] → ∀ other text, system.readText other = .ok text →
    (place.within system directory).readText other = .ok text
  /-- From then on the last text is read through every path that leads there. -/
  read_after : ∀ i, place.finished.getLast? = some i → ∀ other,
    (place.within system directory).resolve other true = .ok (directory ++ [name]) →
      (place.within system directory).readText other = .ok (manifests i).fileText
  /-- If the path did not end in a link, it reads one or the other. -/
  read_path : (∀ link, system.tree.at? (directory ++ [name]) ≠ some (.link link)) →
    (place.within system directory).readText path =
      match place.finished.getLast? with
      | none => system.readText path
      | some i => .ok (manifests i).fileText
  /-- A writer that begins now opens the path in the same place, or fails. -/
  opening_back : ∀ other entries target,
    (place.within system directory).opening path = .ok (other, entries, target) →
      other = directory ∧ entries = place.entries ∧ target = name
  /-- A manifest that is written at once, between the moves of other writers, is written by
  moves of one writer. -/
  write_reaches : ∀ i after, (place.writers i).phase = .idle →
    (manifests i).write (place.within system directory) path = .ok after →
      ∃ next, place.Reaches next ∧ next.within system directory = after ∧
        next.finished = place.finished ++ [i]

variable {system : System} {path : Path} {directory : Location} {entries : Entries}
  {name : String} {manifests : ι → Manifest} {place : Workplace ι}

/-- A path that cannot be opened is written by nobody. -/
theorem write_of_opening_error {fault : Fault} (hopening : system.opening path = .error fault)
    (manifest : Manifest) : manifest.write system path = .error (.inaccessible path fault) := by
  rw [write, System.replaceFile_eq_attempt, System.attempt, hopening]
  rfl

theorem wholeAt_of_sound (hopening : system.opening path = .ok (directory, entries, name))
    (h : place.Sound entries name fun i => (manifests i).pieces) :
    WholeAt manifests system path directory name place := by
  obtain ⟨-, hdirectory, -⟩ := System.opening_eq_ok_iff.mp hopening
  have hentry := FileTree.at?_entry hdirectory name
  -- pieces are joined to the text of a manifest, in the workplace and in its file alike
  have hstanding : ∀ finished, Workplace.standing entries name (fun i => (manifests i).pieces)
      finished = match finished.getLast? with
        | none => system.tree.at? (directory ++ [name])
        | some i => some (.file (manifests i).fileText.toUTF8) := by
    intro finished
    rw [Workplace.standing, hentry]
    cases finished.getLast? with
    | none => rfl
    | some i => simp only [join_pieces]
  constructor
  case content => rw [h.at?_target hdirectory, hstanding]
  case finished_iff => exact h.finished_iff
  case failed =>
    intro i fault hfailed hmem
    rw [(h.finished_iff i).mp hmem] at hfailed
    cases hfailed
  case changed =>
    -- a writer that has failed is not done
    intro i moved hmove hchanged
    -- a change in the place is one of the entry, which a writer makes when it gets done
    refine h.done_of_lookup_ne hmove fun hsame => hchanged ?_
    rw [FileTree.at?_entry (Workplace.Sound.at?_within hdirectory),
      FileTree.at?_entry (Workplace.Sound.at?_within hdirectory)]
    exact hsame
  case read_before =>
    exact fun hnobody other text hread => h.readText_before hdirectory hnobody hread
  case read_after =>
    intro i hlast other hother
    rw [h.readText_after hdirectory hlast hother, join_pieces]
  case read_path =>
    intro hlink
    rw [hentry] at hlink
    rw [h.readText_path hopening hlink]
    cases place.finished.getLast? with
    | none => rfl
    | some i => simp only [join_pieces]
  case opening_back => exact fun _ _ _ hagain => h.opening_back hopening hagain
  case write_reaches =>
    exact fun i after hidle hwrite => h.reaches_replaceFile hopening hidle (write_eq_ok_iff.mp hwrite)

variable (manifests system path)

/-- **Nobody sees a part of a manifest**, however many are written to a path and in whatever order
their steps come. If the path cannot be opened, none is written. -/
theorem wholeAt_of_reaches :
    match system.opening path with
    | .error fault =>
      ∀ i, (manifests i).write system path = .error (.inaccessible path fault)
    | .ok (directory, entries, name) =>
      ∀ place, Workplace.Reaches (.start entries name fun i => (manifests i).pieces) place →
        WholeAt manifests system path directory name place := by
  cases hopening : system.opening path with
  | error fault => exact fun i => write_of_opening_error hopening (manifests i)
  | ok opened =>
    obtain ⟨directory, entries, name⟩ := opened
    intro place hreaches
    exact wholeAt_of_sound hopening (Workplace.sound_of_reaches hreaches)

end Manifest

end Mosaic.Registry
