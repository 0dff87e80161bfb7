import Mosaic.Proofs.Files.Resolution
import Mosaic.Proofs.Results

/-!
# Replaced files

A writer that is not disturbed leaves the directory as it was but for its target, which then
holds all pieces. The replaced file is read through every path that leads to it.

* `freshName_not_mem`: the scratch file has a name of its own.
* `Writer.run_eq`: what a writer leaves behind.
* `replaceFile_eq_ok_iff`: when a file is replaced, and what the system is then.
* `readText_of_replaceFile`: the replaced file is read back.
-/

namespace Mosaic.Files

/-! ## Fresh names -/

/-- A longer name leaves fewer of the taken names to be tried. -/
theorem length_filter_longer_lt {taken : List String} {name : String} (h : name ∈ taken) :
    (taken.filter fun other => (name ++ "~").length ≤ other.length).length <
      (taken.filter fun other => name.length ≤ other.length).length := by
  have hlength : (name ++ "~").length = name.length + 1 := String.length_append name "~"
  have hsame : (taken.filter fun other => (name ++ "~").length ≤ other.length) =
      (taken.filter fun other => name.length ≤ other.length).filter
        fun other => (name ++ "~").length ≤ other.length := by
    rw [List.filter_filter]
    refine List.filter_congr fun other _ => ?_
    rw [← Bool.decide_and, decide_eq_decide]
    omega
  -- the name itself is not counted again for the longer one
  rw [hsame, List.length_filter_lt_length_iff_exists]
  refine ⟨name, List.mem_filter.mpr ⟨h, decide_eq_true (Nat.le_refl _)⟩, ?_⟩
  rw [decide_eq_true_iff]
  omega

/-- A name is found if there are as many attempts as taken names of its length or more. -/
theorem freshNameFrom_not_mem {taken : List String} {attempts : Nat} {name : String}
    (h : (taken.filter fun other => name.length ≤ other.length).length ≤ attempts) :
    freshNameFrom taken attempts name ∉ taken := by
  induction attempts generalizing name with
  | zero =>
    intro hname
    have hnil := List.eq_nil_of_length_eq_zero (Nat.le_zero.mp h)
    have hmem : name ∈ taken.filter fun other => name.length ≤ other.length :=
      List.mem_filter.mpr ⟨hname, decide_eq_true (Nat.le_refl _)⟩
    exact absurd hmem (hnil ▸ List.not_mem_nil)
  | succ attempts ih =>
    rw [freshNameFrom]
    by_cases hname : taken.contains name = true
    · have hless := length_filter_longer_lt (List.contains_iff_mem.mp hname)
      rw [if_pos hname]
      exact ih (by omega)
    · rw [if_neg hname]
      exact fun hmem => hname (List.contains_iff_mem.mpr hmem)

/-- The attempts that are made are as many as there are taken names, and one more. -/
theorem freshName_not_mem (taken : List String) : freshName taken ∉ taken :=
  freshNameFrom_not_mem ((List.length_filter_le _ taken).trans (Nat.le_succ _))

/-! ## Entries -/

section

variable {scratch : String} {entries : Entries}

/-- What is put under a name is what is read there. -/
theorem contentOf_putEntry (content : ByteArray) :
    contentOf (putEntry scratch (.file content) entries) scratch = content := by
  rw [contentOf, lookup_putEntry_self]

/-- A new entry leaves no trace when it is removed. -/
theorem removeEntry_putEntry (hscratch : scratch ∉ entries.map Prod.fst) (node : FileTree) :
    removeEntry scratch (putEntry scratch node entries) = entries := by
  have hkeep : ∀ entry ∈ entries, decide (entry.1 ≠ scratch) = true := by
    intro entry hentry
    refine decide_eq_true fun heq => hscratch ?_
    exact heq ▸ List.mem_map_of_mem hentry
  rw [putEntry_of_not_mem node hscratch, removeEntry, List.filter_append,
    List.filter_eq_self.mpr hkeep]
  simp

/-- A removed entry is gone, however often its name occurred. -/
theorem lookup_removeEntry_self (name : String) (entries : Entries) :
    (removeEntry name entries).lookup name = none := by
  rw [List.lookup_eq_none_iff]
  intro entry hentry
  rw [removeEntry, List.mem_filter, decide_eq_true_iff] at hentry
  exact bne_iff_ne.mpr (Ne.symm hentry.2)

/-- Removing an entry leaves the other names as they were. -/
theorem lookup_removeEntry_of_ne {name other : String} (h : other ≠ name) (entries : Entries) :
    (removeEntry name entries).lookup other = entries.lookup other := by
  induction entries with
  | nil => rfl
  | cons entry rest ih =>
    obtain ⟨key, node⟩ := entry
    rw [removeEntry, List.filter_cons, ← removeEntry]
    by_cases hkey : key = name
    · rw [if_neg (by simpa using hkey), List.lookup_cons, hkey, beq_eq_false_iff_ne.mpr h, ih]
    · rw [if_pos (by simpa using hkey), List.lookup_cons, List.lookup_cons, ih]

end

/-! ## Writers -/

namespace Writer

/-- The steps of a writer can be made in two goes. -/
theorem advanceBy_add (first second : Nat) (writer : Writer) (entries : Entries) :
    writer.advanceBy (first + second) entries =
      (writer.advanceBy first entries).2.advanceBy second (writer.advanceBy first entries).1 := by
  induction first generalizing writer entries with
  | zero => rw [Nat.zero_add]; rfl
  | succ first ih =>
    rw [Nat.succ_add]
    exact ih (writer.advance entries).2 (writer.advance entries).1

/-- The pieces are written one after the other behind what there is. -/
theorem advanceBy_writing {target scratch : String} {all pieces : List String} {entries : Entries}
    (text : String) :
    ({ target, pieces := all, phase := .writing scratch pieces } : Writer).advanceBy pieces.length
        (putEntry scratch (.file text.toUTF8) entries) =
      (putEntry scratch (.file (pieces.foldl (· ++ ·) text).toUTF8) entries,
        { target, pieces := all, phase := .writing scratch [] }) := by
  -- the induction is on what is left to be written; the text is what has been written
  induction pieces generalizing text with
  | nil => rfl
  | cons piece rest ih =>
    have hpiece : ({ target, pieces := all, phase := .writing scratch (piece :: rest) } :
        Writer).advance (putEntry scratch (.file text.toUTF8) entries) =
        (putEntry scratch (.file (text ++ piece).toUTF8) entries,
          { target, pieces := all, phase := .writing scratch rest }) := by
      have htext : text.toUTF8 ++ piece.toUTF8 = (text ++ piece).toUTF8 :=
        String.toByteArray_append.symm
      simp only [advance, contentOf_putEntry, putEntry_putEntry, htext]
    rw [List.length_cons, advanceBy, hpiece]
    exact ih (text ++ piece)

/-- Before its last step the writer has put its text into a scratch file. -/
theorem run_eq_advance (target : String) (pieces : List String) (entries : Entries) :
    ({ target, pieces } : Writer).run entries =
      let scratch := freshName (target :: entries.map Prod.fst)
      ({ target, pieces, phase := .writing scratch [] } : Writer).advance
        (putEntry scratch (.file (String.join pieces).toUTF8) entries) := by
  -- one step makes the scratch file, each piece takes one, and the last one renames it
  have hsteps : pieces.length + 2 = 1 + (pieces.length + 1) := by omega
  rw [run, hsteps, advanceBy_add, advanceBy_add]
  have hstart : ({ target, pieces } : Writer).advanceBy 1 entries =
      (putEntry (freshName (target :: entries.map Prod.fst)) (.file "".toUTF8) entries,
        { target, pieces,
          phase := .writing (freshName (target :: entries.map Prod.fst)) pieces }) := rfl
  rw [hstart, advanceBy_writing]
  rfl

section

variable {target : String} {pieces : List String} {entries : Entries}

/-- The name of the scratch file is neither the target nor that of another entry. -/
theorem scratch_fresh (target : String) (entries : Entries) :
    freshName (target :: entries.map Prod.fst) ≠ target ∧
      freshName (target :: entries.map Prod.fst) ∉ entries.map Prod.fst := by
  have hfresh := freshName_not_mem (target :: entries.map Prod.fst)
  rw [List.mem_cons, not_or] at hfresh
  exact hfresh

/-- **A writer leaves its text** at its target, and every other entry as it was. -/
theorem run_eq (h : ∀ inside, entries.lookup target ≠ some (.directory inside)) :
    ({ target, pieces } : Writer).run entries =
      (putEntry target (.file (String.join pieces).toUTF8) entries,
        { target, pieces, phase := .done }) := by
  obtain ⟨htarget, hscratch⟩ := scratch_fresh target entries
  have hdirectory : ((entries.lookup target).map FileTree.isDirectory).getD false = false := by
    cases hnode : entries.lookup target with
    | none => rfl
    | some node =>
      cases node with
      | file | link => rfl
      | directory inside => exact absurd hnode (h inside)
  rw [run_eq_advance]
  simp only [advance, lookup_putEntry_of_ne htarget.symm, hdirectory, Bool.false_eq_true, if_false,
    renameEntry, contentOf_putEntry, removeEntry_putEntry hscratch]

/-- A writer whose target is a directory fails and leaves every entry as it was. -/
theorem run_eq_of_directory {inside : Entries}
    (h : entries.lookup target = some (.directory inside)) :
    ({ target, pieces } : Writer).run entries =
      (entries, { target, pieces, phase := .failed .isDirectory }) := by
  obtain ⟨htarget, hscratch⟩ := scratch_fresh target entries
  rw [run_eq_advance]
  simp only [advance, lookup_putEntry_of_ne htarget.symm, h, Option.map_some, Option.getD_some,
    FileTree.isDirectory, if_true, abandon, removeEntry_putEntry hscratch]

end

end Writer

/-! ## Replaced files -/

namespace System

variable {system written : System} {path : Path}

/-- A path that ends in dots is refused, if not for that then for its directory. -/
theorem dots_refused {name : String} (above : Path) :
    (do let _ ← system.listDirectory above; .error .busy : Except Fault String) ≠ .ok name := by
  cases system.listDirectory above <;> (intro h; cases h)

/-- The name under which a file is put is the last segment of its path. -/
theorem segments_of_targetName {name : String} (h : system.targetName path = .ok name) :
    ∃ above, path.segments = above ++ [name] ∧ IsName name := by
  -- the last segment is the first of the reversed ones
  obtain ⟨last, above, hreverse⟩ := List.exists_cons_of_ne_nil
    (mt List.reverse_eq_nil_iff.mp (Path.segments_ne_nil path))
  have hsegments : path.segments = above.reverse ++ [last] := by
    rw [← List.reverse_cons, ← hreverse, List.reverse_reverse]
  rw [targetName, hreverse] at h
  by_cases hempty : last = ""
  · -- a path that ends in a slash is refused
    have hhead : (last :: above).head? = some "" := congrArg some hempty
    split at h
    · cases h
    · split at h
      · exact absurd h (dots_refused _)
      · split at h <;> cases h
  · have hdrop : (last :: above).dropWhile (· = "") = last :: above := by
      rw [List.dropWhile_cons, if_neg (by simpa using hempty)]
    have hhead : (last :: above).head? ≠ some "" := fun hhead => hempty (Option.some.inj hhead)
    rw [hdrop] at h
    dsimp only at h
    rw [if_neg hhead] at h
    -- the last segment is a name if it is no dots and not too long
    split at h
    · exact absurd h (dots_refused _)
    · next hdots =>
      split at h
      · cases h
      · next hlimit =>
        rw [← Except.ok.inj h]
        rw [not_or] at hdots
        exact ⟨above.reverse, hsegments, hempty, hdots.1, hdots.2, Nat.not_lt.mp hlimit⟩

/-- Such a path is accepted by every system. -/
theorem targetName_of_segments {above : List String} {name : String}
    (hsegments : path.segments = above ++ [name]) (hname : IsName name) :
    system.targetName path = .ok name := by
  obtain ⟨hempty, hdot, hdots, hlimit⟩ := hname
  have hreverse : path.segments.reverse = name :: above.reverse := by
    rw [hsegments, List.reverse_append, List.reverse_singleton, List.singleton_append]
  have hdrop : (name :: above.reverse).dropWhile (· = "") = name :: above.reverse := by
    rw [List.dropWhile_cons, if_neg (by simpa using hempty)]
  have hhead : (name :: above.reverse).head? ≠ some "" := fun hhead => hempty (Option.some.inj hhead)
  rw [targetName, hreverse, hdrop]
  dsimp only
  rw [if_neg (not_or.mpr ⟨hdot, hdots⟩), if_neg (Nat.not_lt.mpr hlimit), if_neg hhead]

/-- A path names a file by its last segment. -/
theorem targetName_eq_ok_iff {name : String} :
    system.targetName path = .ok name ↔ ∃ above, path.segments = above ++ [name] ∧ IsName name := by
  constructor
  · exact segments_of_targetName
  · rintro ⟨above, hsegments, hname⟩
    exact targetName_of_segments hsegments hname

section

variable {followsLast : Bool}

/-- Looking a path up is to resolve it and to take what stands there. -/
theorem lookup_of_resolve {location : Location}
    (h : system.resolve path followsLast = .ok location) :
    system.lookup path followsLast =
      match system.tree.at? location with
      | some node => .ok node
      | none => .error .missing := by
  rw [lookup, h]
  rfl

/-- A path leads to a node exactly if it resolves to the place of the node. -/
theorem lookup_eq_ok_iff {node : FileTree} :
    system.lookup path followsLast = .ok node ↔ ∃ location,
      system.resolve path followsLast = .ok location ∧ system.tree.at? location = some node := by
  cases hresolve : system.resolve path followsLast with
  | error fault =>
    have hlookup : system.lookup path followsLast = .error fault := by
      rw [lookup, hresolve]
      rfl
    simp [hlookup]
  | ok location =>
    have hexists : (∃ other, Except.ok location = (Except.ok other : Except Fault Location) ∧
        system.tree.at? other = some node) ↔ system.tree.at? location = some node := by
      simp only [Except.ok.injEq, exists_eq_left']
    rw [hexists, lookup_of_resolve hresolve]
    cases system.tree.at? location with
    | none => simp
    | some found => rw [Except.ok.injEq, Option.some_inj]

end

/-- A directory is listed exactly if the path resolves to it. -/
theorem listDirectory_eq_ok_iff {entries : Entries} :
    system.listDirectory path = .ok entries ↔ ∃ location,
      system.resolve path true = .ok location ∧
        system.tree.at? location = some (.directory entries) := by
  rw [← lookup_eq_ok_iff, listDirectory]
  cases system.lookup path true with
  | error fault =>
    show Except.error fault = Except.ok entries ↔ _
    simp
  | ok node =>
    cases node with
    | file | link =>
      show Except.error Fault.notDirectory = Except.ok entries ↔ _
      simp
    | directory inside =>
      show Except.ok inside = Except.ok entries ↔ _
      rw [Except.ok.injEq, Except.ok.injEq, FileTree.directory.injEq]

/-- The system with a text in one entry of a directory. -/
def withText (system : System) (directory : Location) (entries : Entries) (name text : String) :
    System :=
  { system with
    tree := system.tree.updateEntries (fun _ => putEntry name (.file text.toUTF8) entries)
      directory }

section

variable {directory : Location} {entries : Entries} {name : String} {pieces : List String}

/-- A file is replaced if its directory is there, its name is one, and no directory has it. -/
theorem replaceFile_eq_ok (hresolve : system.resolve (directoryOf path) true = .ok directory)
    (hentries : system.tree.at? directory = some (.directory entries))
    (hname : system.targetName path = .ok name)
    (hinside : ∀ inside, entries.lookup name ≠ some (.directory inside)) :
    system.replaceFile path pieces =
      .ok (system.withText directory entries name (String.join pieces)) := by
  have hlist := listDirectory_eq_ok_iff.mpr ⟨directory, hresolve, hentries⟩
  rw [replaceFile, hlist]
  show (system.targetName path >>= _) = _
  rw [hname]
  dsimp only [bind, Except.bind]
  rw [Writer.run_eq hinside]
  dsimp only
  rw [hresolve]
  rfl

end

/-- A text is read if it stands where the path leads. -/
theorem readText_eq_ok_iff {text : String} :
    system.readText path = .ok text ↔ ∃ location content,
      system.resolve path true = .ok location ∧
      system.tree.at? location = some (.file content) ∧ decode content = .ok text := by
  constructor
  · intro h
    rw [readText] at h
    obtain ⟨node, hlookup, hnode⟩ := bind_eq_ok_iff.mp h
    obtain ⟨location, hresolve, hat⟩ := lookup_eq_ok_iff.mp hlookup
    cases node with
    | file content => exact ⟨location, content, hresolve, hat, hnode⟩
    | link target | directory inside => cases hnode
  · rintro ⟨location, content, hresolve, hat, hdecode⟩
    rw [readText, lookup_eq_ok_iff.mpr ⟨location, hresolve, hat⟩]
    exact hdecode

/-- What can be read is there. -/
theorem isPresent_of_readText {text : String} (h : system.readText path = .ok text) :
    system.isPresent path = true := by
  obtain ⟨location, content, hresolve, hat, -⟩ := readText_eq_ok_iff.mp h
  rw [isPresent, lookup_eq_ok_iff.mpr ⟨location, hresolve, hat⟩]
  rfl

/-- **A file is replaced** if its directory is there, its path ends in a name, and no directory
has that name; else nothing is. -/
theorem replaceFile_eq_ok_iff {pieces : List String} :
    system.replaceFile path pieces = .ok written ↔ ∃ directory entries name,
      system.resolve (directoryOf path) true = .ok directory ∧
      system.tree.at? directory = some (.directory entries) ∧
      system.targetName path = .ok name ∧
      (∀ inside, entries.lookup name ≠ some (.directory inside)) ∧
      written = system.withText directory entries name (String.join pieces) := by
  constructor
  · intro h
    have hsteps := h
    rw [replaceFile] at hsteps
    obtain ⟨entries, hlist, hsteps⟩ := bind_eq_ok_iff.mp hsteps
    obtain ⟨name, hname, hsteps⟩ := bind_eq_ok_iff.mp hsteps
    obtain ⟨directory, hresolve, hentries⟩ := listDirectory_eq_ok_iff.mp hlist
    have hinside : ∀ inside, entries.lookup name ≠ some (.directory inside) := by
      intro inside hinside
      -- the writer fails at its last step, which names the file
      rw [Writer.run_eq_of_directory hinside] at hsteps
      cases hsteps
    have hwritten : system.replaceFile path pieces = .ok _ :=
      replaceFile_eq_ok hresolve hentries hname hinside
    exact ⟨directory, entries, name, hresolve, hentries, hname, hinside,
      Except.ok.inj (h.symm.trans hwritten)⟩
  · rintro ⟨directory, entries, name, hresolve, hentries, hname, hinside, rfl⟩
    exact replaceFile_eq_ok hresolve hentries hname hinside

/-! ## Reading the replaced file -/

section

variable {directory : Location} {entries : Entries} {name text : String}

/-- The new text stands under its name. -/
theorem at?_withText (h : system.tree.at? directory = some (.directory entries)) :
    (system.withText directory entries name text).tree.at? (directory ++ [name]) =
      some (.file text.toUTF8) := by
  rw [withText, FileTree.at?_entry (FileTree.at?_updateEntries_self _ h), lookup_putEntry_self]

/-- Text that is written is read back as it was. -/
theorem decode_toUTF8 (text : String) : decode text.toUTF8 = .ok text := by
  have htext : String.fromUTF8? text.toUTF8 = some text := by
    rw [String.toUTF8_eq_toByteArray, String.fromUTF8?, dif_pos text.isValidUTF8]
    rfl
  rw [decode, htext]

/-- The text is read through every path that leads to it. -/
theorem readText_withText (h : system.tree.at? directory = some (.directory entries))
    {other : Path}
    (hother : (system.withText directory entries name text).resolve other true =
      .ok (directory ++ [name])) :
    (system.withText directory entries name text).readText other = .ok text := by
  have hlookup := lookup_eq_ok_iff.mpr ⟨directory ++ [name], hother, at?_withText h⟩
  rw [readText, hlookup]
  exact decode_toUTF8 text

/-- Directories and links stay where they are, if the text takes the place of neither. -/
theorem passable_withText (h : system.tree.at? directory = some (.directory entries))
    (hdirectory : ∀ inside, entries.lookup name ≠ some (.directory inside))
    (hlink : ∀ target, entries.lookup name ≠ some (.link target)) :
    Passable system.tree (system.withText directory entries name text).tree := by
  refine passable_updateEntries h fun other node hnode hfile => ?_
  by_cases hother : other = name
  · subst hother
    cases node with
    | file content => exact absurd rfl (hfile content)
    | link target => exact absurd hnode (hlink target)
    | directory inside => exact absurd hnode (hdirectory inside)
  · rw [lookup_putEntry_of_ne hother]
    exact hnode

/-- A path to a directory leads to the same place after the text has been written. -/
theorem resolve_withText {goal : Location} {inside : Entries}
    (h : system.tree.at? directory = some (.directory entries))
    (hdirectory : ∀ inside, entries.lookup name ≠ some (.directory inside))
    (hlink : ∀ target, entries.lookup name ≠ some (.link target))
    (hgoal : system.tree.at? goal = some (.directory inside))
    (hresolve : system.resolve path true = .ok goal) :
    (system.withText directory entries name text).resolve path true = .ok goal := by
  have hpath : path ≠ "" := by
    rintro rfl
    cases hresolve
  exact resolve_of_leads hpath
    ((leads_of_resolve hgoal hresolve).of_passable (passable_withText h hdirectory hlink))

/-- The path of a text leads to it, if its directory is still found. -/
theorem resolve_path_withText (h : system.tree.at? directory = some (.directory entries))
    (hname : system.targetName path = .ok name)
    (hresolve : (system.withText directory entries name text).resolve (directoryOf path) true =
      .ok directory) :
    (system.withText directory entries name text).resolve path true =
      .ok (directory ++ [name]) := by
  obtain ⟨above, hsegments, hname⟩ := segments_of_targetName hname
  have hchanged := FileTree.at?_updateEntries_self
    (fun _ => putEntry name (.file text.toUTF8) entries) h
  exact resolve_of_directoryOf hsegments hname hresolve hchanged (lookup_putEntry_self _ entries)

end

/-- **A replaced file is read** through every path that leads to it then: it stands under the
last name of its path, in the directory of its path. The path that was written to leads to it,
unless the file took the place of a link that this path passes. -/
theorem readText_of_replaceFile {pieces : List String}
    (h : system.replaceFile path pieces = .ok written) : ∃ directory name,
      system.resolve (directoryOf path) true = .ok directory ∧
      system.targetName path = .ok name ∧
      (∀ other, written.resolve other true = .ok (directory ++ [name]) →
        written.readText other = .ok (String.join pieces)) ∧
      ((∀ target, system.tree.at? (directory ++ [name]) = some (.link target) →
        written.resolve (directoryOf path) true = .ok directory) →
        written.resolve path true = .ok (directory ++ [name])) := by
  obtain ⟨directory, entries, name, hresolve, hentries, hname, hinside, rfl⟩ :=
    replaceFile_eq_ok_iff.mp h
  refine ⟨directory, name, hresolve, hname, fun other hother => ?_, fun hlink => ?_⟩
  · exact readText_withText hentries hother
  · rw [FileTree.at?_entry hentries] at hlink
    refine resolve_path_withText hentries hname ?_
    -- only a link that is replaced can close the way to the directory
    by_cases hreplaced : ∃ target, entries.lookup name = some (.link target)
    · obtain ⟨target, htarget⟩ := hreplaced
      exact hlink target htarget
    · rw [not_exists] at hreplaced
      exact resolve_withText hentries hinside hreplaced hentries hresolve

end System

end Mosaic.Files
