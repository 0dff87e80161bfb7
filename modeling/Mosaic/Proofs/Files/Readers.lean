import Mosaic.Proofs.Files.Writers

/-!
# Reading while writers are at work

Writers are at work in a directory of a system, and the file that they replace is read at any
moment. A path that leads to it reads the old content until the first writer is done, and from
then on the text of the last one that is done; a path that leads elsewhere is not disturbed.

* `Workplace.within`: the system while the writers are at work.
* `Workplace.Sound.passable_within`, `Workplace.Sound.passable_back`: where paths lead then.
* `Workplace.Sound.readText_before`, `Workplace.Sound.readText_after`,
  `Workplace.Sound.readText_path`: what is read.
* `Workplace.Sound.reaches_replaceFile`: a file that is replaced at once, between other moves.
-/

namespace Mosaic.Files

namespace System

variable {system : System} {path : Path} {directory : Location} {entries : Entries} {name : String}

/-- What is read through a path that does not end in a link stands under the last name of the
path. -/
theorem readText_of_opening (hopening : system.opening path = .ok (directory, entries, name))
    (hlink : ∀ target, entries.lookup name ≠ some (.link target)) :
    system.readText path =
      match entries.lookup name with
      | some (.file content) => decode content
      | some (.directory _) => .error .isDirectory
      | _ => .error .missing := by
  obtain ⟨hdirectory, hentries, hname⟩ := opening_eq_ok_iff.mp hopening
  obtain ⟨above, hsegments, hname⟩ := targetName_eq_ok_iff.mp hname
  have hway := leads_of_directoryOf hsegments hname hdirectory hentries
  obtain ⟨links, hfollow⟩ := resolve_eq_follow hsegments hname hway
  -- the last segment is looked up in the directory itself
  have hat := FileTree.at?_entry hentries name
  rw [follow_name hname, hat] at hfollow
  cases hnode : entries.lookup name with
  | none =>
    rw [hnode] at hfollow
    rw [readText, lookup, hfollow]
    rfl
  | some node =>
    rw [hnode] at hfollow hat
    cases node with
    | link target => exact absurd hnode (hlink target)
    | file content =>
      rw [readText, lookup_of_resolve hfollow, hat]
      rfl
    | directory inside =>
      dsimp only at hfollow
      rw [follow_nil] at hfollow
      rw [readText, lookup_of_resolve hfollow, hat]
      rfl

end System

namespace Workplace

variable {ι : Type}

/-- The system while the writers are at work in one of its directories. -/
def within (place : Workplace ι) (system : System) (directory : Location) : System :=
  { system with tree := system.tree.updateEntries (fun _ => place.entries) directory }

namespace Sound

variable {first : Entries} {target : String} {pieces : ι → List String} {place : Workplace ι}

section

variable (h : Sound first target pieces place)
include h

/-- Until a writer is done the old entries are all there. -/
theorem lookup_before (hnobody : place.finished = []) {name : String} {node : FileTree}
    (hnode : first.lookup name = some node) : place.entries.lookup name = some node := by
  by_cases hname : name = target
  · rw [hname, h.standing_eq, hnobody, ← hnode, hname]
    rfl
  · rcases h.others name hname with hsame | ⟨hnone, -⟩
    · rw [hsame, hnode]
    · rw [hnone] at hnode
      cases hnode

/-- Directories and links are always there, except for a link at the target. -/
theorem lookup_of_ne_file
    (hlink : place.finished = [] ∨ ∀ link, first.lookup target ≠ some (.link link))
    {name : String} {node : FileTree} (hnode : first.lookup name = some node)
    (hfile : ∀ content, node ≠ .file content) : place.entries.lookup name = some node := by
  by_cases hnobody : place.finished = []
  · exact h.lookup_before hnobody hnode
  · by_cases hname : name = target
    · subst hname
      -- what the writers replace is a file, if it is no link
      cases node with
      | file content => exact absurd rfl (hfile content)
      | link link => exact absurd hnode (hlink.resolve_left hnobody link)
      | directory inside => exact absurd hnode (h.clear hnobody inside)
    · rcases h.others name hname with hsame | ⟨hnone, -⟩
      · rw [hsame, hnode]
      · rw [hnone] at hnode
        cases hnode

/-- No directories and no links are new. -/
theorem lookup_back {name : String} {node : FileTree}
    (hnode : place.entries.lookup name = some node) (hfile : ∀ content, node ≠ .file content) :
    first.lookup name = some node := by
  by_cases hname : name = target
  · rw [hname, h.standing_eq, standing] at hnode
    split at hnode
    · rw [hname, hnode]
    · exact absurd (Option.some.inj hnode).symm (hfile _)
  · rcases h.others name hname with hsame | ⟨-, content, hcontent⟩
    · rw [← hsame, hnode]
    · rw [hcontent] at hnode
      exact absurd (Option.some.inj hnode).symm (hfile content)

variable {system : System} {directory : Location}
  (hdirectory : system.tree.at? directory = some (.directory first))
include hdirectory

omit h in
/-- The directory of the writers has their entries. -/
theorem at?_within :
    (place.within system directory).tree.at? directory = some (.directory place.entries) :=
  FileTree.at?_updateEntries_self (fun _ => place.entries) hdirectory

/-- The file that is replaced. -/
theorem at?_target :
    (place.within system directory).tree.at? (directory ++ [target]) =
      standing first target pieces place.finished := by
  rw [FileTree.at?_entry (at?_within hdirectory), h.standing_eq]

/-- All ways stay open, unless the file takes the place of a link. -/
theorem passable_within
    (hlink : place.finished = [] ∨ ∀ link, first.lookup target ≠ some (.link link)) :
    Passable system.tree (place.within system directory).tree :=
  passable_updateEntries hdirectory fun _ _ hnode hfile => h.lookup_of_ne_file hlink hnode hfile

/-- No ways are new. -/
theorem passable_back : Passable (place.within system directory).tree system.tree := by
  -- the old tree is the new one with the old entries put back
  have hback : system.tree = (place.within system directory).tree.updateEntries (fun _ => first)
      directory := by
    rw [within, FileTree.updateEntries_updateEntries]
    exact (FileTree.updateEntries_self hdirectory rfl).symm
  rw [hback]
  exact passable_updateEntries (at?_within hdirectory)
    fun _ _ hnode hfile => h.lookup_back hnode hfile

/-- Until a writer is done, what could be read is read. -/
theorem readText_before (hnobody : place.finished = []) {other : Path} {text : String}
    (hread : system.readText other = .ok text) :
    (place.within system directory).readText other = .ok text := by
  obtain ⟨location, content, hresolve, hat, hdecode⟩ := System.readText_eq_ok_iff.mp hread
  have hkept : (place.within system directory).tree.at? location = some (.file content) :=
    FileTree.at?_updateEntries_file hdirectory (fun _ _ => h.lookup_before hnobody) hat
  refine System.readText_eq_ok_iff.mpr ⟨location, content, ?_, hkept, hdecode⟩
  exact System.resolve_of_passable (h.passable_within hdirectory (.inl hnobody)) rfl
    (fun _ _ => ⟨content, hkept⟩) hresolve

/-- When a writer is done, the text of the last one is read through every path that leads
there. -/
theorem readText_after {i : ι} (hlast : place.finished.getLast? = some i) {other : Path}
    (hother : (place.within system directory).resolve other true = .ok (directory ++ [target])) :
    (place.within system directory).readText other = .ok (String.join (pieces i)) := by
  refine System.readText_eq_ok_iff.mpr ⟨_, _, hother, ?_, System.decode_toUTF8 _⟩
  rw [h.at?_target hdirectory, standing, hlast]

end

section

variable (h : Sound first target pieces place) {system : System} {path : Path}
  {directory : Location} (hopening : system.opening path = .ok (directory, first, target))
include h hopening

/-- The path is opened in the same place again, unless the file takes the place of a link. -/
theorem opening_within
    (hlink : place.finished = [] ∨ ∀ link, first.lookup target ≠ some (.link link)) :
    (place.within system directory).opening path = .ok (directory, place.entries, target) := by
  obtain ⟨hresolve, hdirectory, hname⟩ := System.opening_eq_ok_iff.mp hopening
  obtain ⟨above, hsegments, hname⟩ := System.targetName_eq_ok_iff.mp hname
  refine System.opening_eq_ok_iff.mpr ⟨?_, at?_within hdirectory,
    System.targetName_of_segments hsegments hname⟩
  refine System.resolve_of_passable (h.passable_within hdirectory hlink) rfl ?_ hresolve
  intro content hcontent
  rw [hdirectory] at hcontent
  cases hcontent

/-- Wherever the path is opened again, it is in the same place. -/
theorem opening_back {other : Location} {entries : Entries} {name : String}
    (hagain : (place.within system directory).opening path = .ok (other, entries, name)) :
    other = directory ∧ entries = place.entries ∧ name = target := by
  obtain ⟨hresolve, hdirectory, hname⟩ := System.opening_eq_ok_iff.mp hopening
  obtain ⟨hresolve', hother, hname'⟩ := System.opening_eq_ok_iff.mp hagain
  have hback : system.resolve (System.directoryOf path) true = .ok other := by
    refine System.resolve_of_passable (h.passable_back hdirectory) rfl ?_ hresolve'
    intro content hcontent
    rw [hother] at hcontent
    cases hcontent
  obtain rfl : directory = other := Except.ok.inj (hresolve.symm.trans hback)
  obtain ⟨above, hsegments, -⟩ := System.targetName_eq_ok_iff.mp hname
  obtain ⟨above', hsegments', -⟩ := System.targetName_eq_ok_iff.mp hname'
  -- both names are the last segment of the path
  have hlast := (List.append_inj' (hsegments.symm.trans hsegments') rfl).2
  rw [at?_within hdirectory] at hother
  exact ⟨rfl, (FileTree.directory.inj (Option.some.inj hother)).symm, (List.cons.inj hlast).1.symm⟩

/-- **Readers of the path** read the old content, or the text of the last writer that is done. -/
theorem readText_path (hlink : ∀ link, first.lookup target ≠ some (.link link)) :
    (place.within system directory).readText path =
      match place.finished.getLast? with
      | none => system.readText path
      | some i => .ok (String.join (pieces i)) := by
  have hwithin := h.opening_within hopening (.inr hlink)
  have hnolink : ∀ link, place.entries.lookup target ≠ some (.link link) := by
    intro link hnode
    exact hlink link (h.lookup_back hnode (by simp))
  rw [System.readText_of_opening hwithin hnolink, System.readText_of_opening hopening hlink,
    h.standing_eq, standing]
  cases place.finished.getLast? with
  | none => rfl
  | some i => exact System.decode_toUTF8 _

variable [DecidableEq ι]

/-- A file that is replaced at once, between the moves of other writers, is replaced by moves of
one writer. -/
theorem reaches_replaceFile {i : ι} (hidle : (place.writers i).phase = .idle) {after : System}
    (hreplace : (place.within system directory).replaceFile path (pieces i) = .ok after) :
    ∃ next, Reaches place next ∧ next.within system directory = after ∧
      next.finished = place.finished ++ [i] := by
  obtain ⟨other, entries, name, hresolve, hentries, hname, hinside, rfl⟩ :=
    System.replaceFile_eq_ok_iff.mp hreplace
  obtain ⟨rfl, rfl, rfl⟩ := h.opening_back hopening
    (System.opening_eq_ok_iff.mpr ⟨hresolve, hentries, hname⟩)
  -- the writer has not begun, so that its moves are those of a writer that is alone
  have hwriter : place.writers i = { target := name, pieces := pieces i } := by
    rw [← h.target_eq i, ← h.pieces_eq i, ← hidle]
  have hrun : (place.writers i).advanceBy ((pieces i).length + 2) place.entries =
      (putEntry name (.file (String.join (pieces i)).toUTF8) place.entries,
        { target := name, pieces := pieces i, phase := .done }) := by
    rw [hwriter]
    exact Writer.run_eq hinside
  refine ⟨_, reaches_advanceBy ((pieces i).length + 2) place i, ?_, ?_⟩
  · rw [hrun, within, System.withText, within, FileTree.updateEntries_updateEntries]
    rfl
  · rw [hrun]
    show (if _ && !(place.writers i).phase.isDone then _ else _) = _
    rw [hidle]
    rfl

end

end Sound

end Workplace

end Mosaic.Files
