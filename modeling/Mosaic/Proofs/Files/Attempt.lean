import Mosaic.Proofs.Files.Sight

/-!
# Attempts that are disrupted

An attempt to replace a file may be disrupted after any number of its steps. The writer then
gives up, and what it leaves is told here along with the outcome. Either way nothing is left
half done: the file has the whole text and all else is as before, or nothing has changed.

* `Writer.Progress`, `Writer.Settled`: what a writer and its directory look like on the way and
  in the end.
* `Writer.settled_runUnder`: how a run ends that may be disrupted.
* `System.attempt`: an attempt, with the system that it leaves even if it fails.
* `System.replaceFile_eq_attempt`: an attempt that nothing disrupts.
* `System.attempt_of_error`, `System.attempt_of_ok`: what is left of an attempt.
* `System.readText_replaceFile`: what is read through the path of a replaced file.
-/

namespace Mosaic.Files

namespace Writer

/-! ## One writer -/

/-- How a writer and its directory look in the end: all is done, or nothing has happened to the
entries that there were. -/
inductive Settled (target : String) (pieces : List String) (entries : Entries) :
    Entries × Writer → Prop
  | done : (∀ inside, entries.lookup target ≠ some (.directory inside)) →
    Settled target pieces entries
      (putEntry target (.file (String.join pieces).toUTF8) entries,
        { target, pieces, phase := .done })
  | failed (fault : Fault) :
    Settled target pieces entries (entries, { target, pieces, phase := .failed fault })

/-- How they look on the way. -/
inductive Progress (target : String) (pieces : List String) (entries : Entries) :
    Entries × Writer → Prop
  | idle : Progress target pieces entries (entries, { target, pieces })
  | writing {scratch : String} (written rest : List String) :
    scratch ≠ target → scratch ∉ entries.map Prod.fst → written ++ rest = pieces →
    Progress target pieces entries
      (putEntry scratch (.file (String.join written).toUTF8) entries,
        { target, pieces, phase := .writing scratch rest })
  | settled {state : Entries × Writer} : Settled target pieces entries state →
    Progress target pieces entries state

variable {target : String} {pieces : List String} {entries : Entries}

/-- One more piece behind those that are written. -/
theorem toUTF8_join_concat (written : List String) (piece : String) :
    (String.join written).toUTF8 ++ piece.toUTF8 = (String.join (written ++ [piece])).toUTF8 := by
  have hpiece : String.join [piece] = piece := by simp
  rw [String.join_append, hpiece]
  exact String.toByteArray_append.symm

/-- Whether an entry is a directory, as the last step of a writer sees it. -/
theorem getD_isDirectory_iff (node : Option FileTree) :
    (node.map FileTree.isDirectory).getD false = true ↔
      ∃ inside, node = some (.directory inside) := by
  rcases node with _ | (content | link | inside)
  · exact iff_of_false Bool.false_ne_true (by simp)
  · exact iff_of_false Bool.false_ne_true (by simp)
  · exact iff_of_false Bool.false_ne_true (by simp)
  · exact iff_of_true rfl ⟨inside, rfl⟩

/-- A writer that is done or has failed does not move any more. -/
theorem Settled.advance_eq {state : Entries × Writer} (h : Settled target pieces entries state) :
    state.2.advance state.1 = state := by
  cases h <;> rfl

theorem Settled.abandon_eq {state : Entries × Writer} (h : Settled target pieces entries state)
    (fault : Fault) : state.2.abandon fault state.1 = state := by
  cases h <;> rfl

/-- A writer that gives up takes its scratch file with it. -/
theorem Progress.abandon {state : Entries × Writer} (h : Progress target pieces entries state)
    (fault : Fault) : Settled target pieces entries (state.2.abandon fault state.1) := by
  cases h with
  | idle => exact .failed fault
  | writing written rest htarget hscratch hpieces =>
    -- without the scratch file the entries are those that there were
    show Settled target pieces entries (removeEntry _ (putEntry _ _ entries), _)
    rw [removeEntry_putEntry hscratch]
    exact .failed fault
  | settled h => rwa [h.abandon_eq]

/-- The last step takes the scratch file away, whether it is refused or not. -/
theorem Settled.of_written {scratch : String} (htarget : scratch ≠ target)
    (hscratch : scratch ∉ entries.map Prod.fst) :
    Settled target pieces entries
      (({ target, pieces, phase := .writing scratch [] } : Writer).advance
        (putEntry scratch (.file (String.join pieces).toUTF8) entries)) := by
  by_cases hdirectory : ∃ inside, entries.lookup target = some (.directory inside)
  · have hrefused := (getD_isDirectory_iff _).mpr hdirectory
    simp only [advance, lookup_putEntry_of_ne htarget.symm, hrefused, if_true, Writer.abandon,
      removeEntry_putEntry hscratch]
    exact .failed .isDirectory
  · have haccepted := (Bool.not_eq_true _).mp (mt (getD_isDirectory_iff _).mp hdirectory)
    simp only [advance, lookup_putEntry_of_ne htarget.symm, haccepted, Bool.false_eq_true, if_false,
      renameEntry, contentOf_putEntry, removeEntry_putEntry hscratch]
    exact .done (not_exists.mp hdirectory)

/-- Each step leads on. -/
theorem Progress.advance {state : Entries × Writer} (h : Progress target pieces entries state) :
    Progress target pieces entries (state.2.advance state.1) := by
  cases h with
  | idle =>
    obtain ⟨htarget, hscratch⟩ := scratch_fresh target entries
    exact .writing [] pieces htarget hscratch rfl
  | @writing scratch written rest htarget hscratch hpieces =>
    -- one more piece is written, or all are and the scratch file takes its place
    cases rest with
    | cons piece rest =>
      simp only [Writer.advance, contentOf_putEntry, putEntry_putEntry, toUTF8_join_concat]
      exact .writing (written ++ [piece]) rest htarget hscratch (by rw [← List.append_cons, hpieces])
    | nil =>
      rw [List.append_nil] at hpieces
      subst hpieces
      exact .settled (.of_written htarget hscratch)
  | settled h =>
    rw [h.advance_eq]
    exact .settled h

theorem Progress.advanceBy {state : Entries × Writer} (h : Progress target pieces entries state)
    (steps : Nat) : Progress target pieces entries (state.2.advanceBy steps state.1) := by
  induction steps generalizing state with
  | zero => exact h
  | succ steps ih => exact ih h.advance

/-- All steps of a writer, or, if it is disrupted, so many steps and then no more. -/
def runUnder (disruption : Option (Nat × Fault)) (writer : Writer) (entries : Entries) :
    Entries × Writer :=
  match disruption with
  | none => writer.run entries
  | some (steps, fault) =>
    let (entries, writer) := writer.advanceBy steps entries
    writer.abandon fault entries

/-- **A run does all or nothing**, wherever it may be disrupted. -/
theorem settled_runUnder (disruption : Option (Nat × Fault)) (target : String)
    (pieces : List String) (entries : Entries) :
    Settled target pieces entries (({ target, pieces } : Writer).runUnder disruption entries) := by
  cases disruption with
  | none =>
    rw [runUnder]
    by_cases hdirectory : ∃ inside, entries.lookup target = some (.directory inside)
    · obtain ⟨inside, hinside⟩ := hdirectory
      rw [run_eq_of_directory hinside]
      exact .failed .isDirectory
    · rw [run_eq (not_exists.mp hdirectory)]
      exact .done (not_exists.mp hdirectory)
  -- so many steps are progress, and to give up settles it
  | some disruption => exact (Progress.idle.advanceBy disruption.1).abandon disruption.2

/-- What a writer reports in the end. -/
def outcome (writer : Writer) : Except Fault Unit :=
  match writer.phase with
  | .failed fault => .error fault
  | _ => .ok ()

end Writer

/-! ## The system -/

namespace System

/-- Where the file of a path is put: the directory with its entries, and the name there. -/
def opening (system : System) (path : Path) : Except Fault (Location × Entries × String) := do
  let entries ← system.listDirectory (directoryOf path)
  let name ← system.targetName path
  let directory ← system.resolve (directoryOf path) true
  .ok (directory, entries, name)

/-- An attempt to replace the file of a path, and the system that it leaves. -/
def attempt (disruption : Option (Nat × Fault)) (system : System) (path : Path)
    (pieces : List String) : Except Fault Unit × System :=
  match system.opening path with
  | .error fault => (.error fault, system)
  | .ok (directory, entries, target) =>
    let (entries, writer) := ({ target, pieces : Writer }).runUnder disruption entries
    (writer.outcome,
      { system with tree := system.tree.updateEntries (fun _ => entries) directory })

variable {system left : System} {path : Path} {directory : Location} {entries : Entries}
  {name : String}

theorem opening_eq_ok_iff :
    system.opening path = .ok (directory, entries, name) ↔
      system.resolve (directoryOf path) true = .ok directory ∧
      system.tree.at? directory = some (.directory entries) ∧
      system.targetName path = .ok name := by
  rw [opening]
  constructor
  · intro h
    obtain ⟨found, hlist, h⟩ := bind_eq_ok_iff.mp h
    obtain ⟨target, hname, h⟩ := bind_eq_ok_iff.mp h
    obtain ⟨location, hresolve, h⟩ := bind_eq_ok_iff.mp h
    obtain ⟨rfl, rfl, rfl⟩ : location = directory ∧ found = entries ∧ target = name := by
      simpa using h
    -- the directory is resolved twice, in the same system
    obtain ⟨place, hplace, hentries⟩ := listDirectory_eq_ok_iff.mp hlist
    rw [hresolve] at hplace
    rw [Except.ok.inj hplace]
    exact ⟨hresolve ▸ hplace, hentries, hname⟩
  · rintro ⟨hresolve, hentries, hname⟩
    rw [listDirectory_eq_ok_iff.mpr ⟨directory, hresolve, hentries⟩, hname, hresolve]
    rfl

/-- **A file is replaced** by an attempt that nothing disrupts. -/
theorem replaceFile_eq_attempt (system : System) (path : Path) (pieces : List String) :
    system.replaceFile path pieces =
      match system.attempt none path pieces with
      | (.ok (), left) => .ok left
      | (.error fault, _) => .error fault := by
  rw [replaceFile, attempt, opening]
  cases hlist : system.listDirectory (directoryOf path) with
  | error fault => rfl
  | ok entries =>
    cases hname : system.targetName path with
    | error fault => rfl
    | ok name =>
      obtain ⟨directory, hresolve, hentries⟩ := listDirectory_eq_ok_iff.mp hlist
      rw [hresolve]
      dsimp only [bind, Except.bind, Writer.runUnder, Writer.outcome]
      cases (({ target := name, pieces } : Writer).run entries).2.phase <;> rfl

/-- What is left of an attempt, depending on how its run ends. -/
theorem attempt_eq (hopening : system.opening path = .ok (directory, entries, name))
    (disruption : Option (Nat × Fault)) (pieces : List String) :
    (∃ fault, system.attempt disruption path pieces = (.error fault, system)) ∨
      (∀ inside, entries.lookup name ≠ some (.directory inside)) ∧
        system.attempt disruption path pieces =
          (.ok (), system.withText directory entries name (String.join pieces)) := by
  obtain ⟨-, hentries, -⟩ := opening_eq_ok_iff.mp hopening
  rw [attempt, hopening]
  dsimp only
  -- all that matters is how the run has settled
  generalize hrun : ({ target := name, pieces } : Writer).runUnder disruption entries = state
  cases hrun ▸ Writer.settled_runUnder disruption name pieces entries with
  | done hinside => exact .inr ⟨hinside, rfl⟩
  | failed fault =>
    refine .inl ⟨fault, ?_⟩
    rw [FileTree.updateEntries_self hentries rfl]
    rfl

/-- **A failed attempt leaves the system as it was.** -/
theorem attempt_of_error {disruption : Option (Nat × Fault)} {pieces : List String} {fault : Fault}
    (h : system.attempt disruption path pieces = (.error fault, left)) : left = system := by
  cases hopening : system.opening path with
  | error other =>
    rw [attempt, hopening] at h
    exact (Prod.mk.inj h).2.symm
  | ok opened =>
    obtain ⟨directory, entries, name⟩ := opened
    rcases attempt_eq hopening disruption pieces with ⟨other, hother⟩ | ⟨-, hok⟩
    · exact (Prod.mk.inj (h.symm.trans hother)).2
    · cases (Prod.mk.inj (h.symm.trans hok)).1

/-- **An attempt that succeeds** leaves its text, in the place of no directory. -/
theorem attempt_of_ok {disruption : Option (Nat × Fault)} {pieces : List String}
    (h : system.attempt disruption path pieces = (.ok (), left)) : ∃ directory entries name,
      system.opening path = .ok (directory, entries, name) ∧
      (∀ inside, entries.lookup name ≠ some (.directory inside)) ∧
      left = system.withText directory entries name (String.join pieces) := by
  cases hopening : system.opening path with
  | error other =>
    rw [attempt, hopening] at h
    cases (Prod.mk.inj h).1
  | ok opened =>
    obtain ⟨directory, entries, name⟩ := opened
    rcases attempt_eq hopening disruption pieces with ⟨other, hother⟩ | ⟨hinside, hok⟩
    · cases (Prod.mk.inj (h.symm.trans hother)).1
    · exact ⟨directory, entries, name, rfl, hinside, (Prod.mk.inj (h.symm.trans hok)).2⟩

/-- Nothing but its own file is different after a text has been written. -/
theorem see?_withText (hentries : system.tree.at? directory = some (.directory entries))
    (hinside : ∀ inside, entries.lookup name ≠ some (.directory inside)) {text : String}
    {location : Location} (hlocation : location ≠ directory ++ [name]) :
    (system.withText directory entries name text).tree.see? location =
      system.tree.see? location := by
  refine FileTree.see?_updateEntries_of_ne hentries hinside ?_
    (fun other hother => lookup_putEntry_of_ne hother _ entries) hlocation
  intro inside
  rw [lookup_putEntry_self]
  simp

/-- **A replaced file is read through its own path**, unless it has blocked that path: it may have
taken the place of a link that the path passes. -/
theorem readText_replaceFile {written : System} {pieces : List String}
    (h : system.replaceFile path pieces = .ok written) :
    written.readText path =
      if written.isPresent path then .ok (String.join pieces) else .error .notDirectory := by
  obtain ⟨directory, entries, name, hdirectory, hentries, hname, hinside, rfl⟩ :=
    replaceFile_eq_ok_iff.mp h
  obtain ⟨above, hsegments, hname⟩ := segments_of_targetName hname
  have hfile : (system.withText directory entries name (String.join pieces)).tree.at?
      (directory ++ [name]) = some (.file (String.join pieces).toUTF8) := at?_withText hentries
  have hbefore : ∀ inside, system.tree.at? (directory ++ [name]) ≠ some (.directory inside) := by
    intro inside
    rw [FileTree.at?_entry hentries]
    exact hinside inside
  -- the segments but the last led to the directory, and do so still if they are not blocked
  have hway := leads_of_directoryOf hsegments hname hdirectory hentries
  rcases hway.of_blocked hfile hbefore fun _ => see?_withText hentries hinside with
    hsame | hrefused
  · obtain ⟨links, hfollow⟩ := resolve_eq_follow hsegments hname hsame
    have hresolve : (system.withText directory entries name (String.join pieces)).resolve path true =
        .ok (directory ++ [name]) := by
      rw [hfollow, follow_name hname, hfile]
      rfl
    have hread := readText_withText hentries hresolve
    rw [hread, if_pos (isPresent_of_readText hread)]
  · have hresolve : (system.withText directory entries name (String.join pieces)).resolve path true =
        .error .notDirectory := by
      rw [resolve, if_neg (ne_empty_of_segments hsegments hname), hsegments]
      exact hrefused [name] (List.cons_ne_nil _ _)
    rw [readText, isPresent, lookup, hresolve]
    rfl

end System

end Mosaic.Files
