import Mosaic.Proofs.Files.Attempt
import Mosaic.Proofs.Files.Exchange

/-!
# Systems without links

Without links a path leads to one place only, and it does so whether or not there is a file: its
last segment names the file, and the other segments lead to the directory of the file.

* `System.Linkless`: a system without links.
* `System.Denotes`: the place of the file that a path is about.
* `System.Linkless.denotes_of_resolve`: a path that leads to a file is about that file.
* `System.Linkless.withText`, `System.Linkless.replaceFile_withText`: a text that is written leaves
  no links, and can be replaced in its turn.
* `System.exchanged_withText`: writing a text can be undone by exchanging the file.
-/

namespace Mosaic.Files

/-! ## The name of a path -/

/-- The last segment of a path is its file name, if it is a name. -/
theorem Path.fileName?_of_segments {path : Path} {above : List String} {name : String}
    (h : path.segments = above ++ [name]) (hname : IsName name) : path.fileName? = some name := by
  obtain ⟨hempty, hdot, hdots, -⟩ := hname
  have hpart : laterPart? name = some (.name name) := by
    rw [laterPart?, if_neg (not_or.mpr ⟨hempty, hdot⟩), if_neg hdots]
  have hparts : ∃ front, path.parts = front ++ [.name name] := by
    cases above with
    | nil =>
      have hfirst : firstPart? name true = some (.name name) := by
        rw [firstPart?, if_neg hempty, if_neg hdot, hpart]
      rw [List.nil_append] at h
      refine ⟨[], ?_⟩
      rw [parts, h]
      show (firstPart? name true).toList ++ [].filterMap laterPart? = _
      rw [hfirst]
      rfl
    | cons first inner =>
      rw [List.cons_append] at h
      -- a name after the first segment is a part in any case, whatever the first segment is
      refine ⟨(firstPart? first (inner ++ [name]).isEmpty).toList ++ inner.filterMap laterPart?, ?_⟩
      rw [parts, h]
      show _ ++ (inner ++ [name]).filterMap laterPart? = _
      rw [List.filterMap_append, List.filterMap_cons_some hpart, List.filterMap_nil,
        List.append_assoc]
  obtain ⟨front, hparts⟩ := hparts
  rw [fileName?, hparts, List.getLast?_concat]

/-- A name that is joined to a path is its file name. -/
theorem Path.fileName?_join (path : Path) {name : String} (hname : IsName name)
    (hslash : '/' ∉ name.toList) : (path.join name).fileName? = some name := by
  by_cases hpath : path = ""
  · have hjoin : path.join name = name := by
      rw [join, if_pos (.inr hpath)]
    have hsegments : Path.segments name = [] ++ [name] := Path.segments_of_slash_not_mem hslash
    rw [hjoin]
    exact fileName?_of_segments hsegments hname
  · -- the name comes after all segments of the path
    obtain ⟨kept, blanks, -, -, hsegments, -⟩ := Path.segments_join hpath hslash
    exact fileName?_of_segments hsegments hname

/-! ## Trees -/

namespace FileTree

/-- What has something below it is a directory. -/
theorem exists_directory_of_append {tree : FileTree} {above below : Location} {entries : Entries}
    (h : tree.at? (above ++ below) = some (.directory entries)) :
    ∃ entries', tree.at? above = some (.directory entries') := by
  rw [at?_append] at h
  obtain ⟨node, hnode, hbelow⟩ := Option.bind_eq_some_iff.mp h
  cases node with
  | directory entries' => exact ⟨entries', hnode⟩
  | file content | link target =>
    -- nothing is below a file or a link, and neither is a directory itself
    cases below with
    | nil =>
      rw [at?_nil] at hbelow
      cases hbelow
    | cons name rest => cases hbelow

theorem wellFormedEntries_iff {entries : Entries} :
    WellFormedEntries entries ↔ ∀ entry ∈ entries, entry.2.WellFormed := by
  induction entries with
  | nil => exact iff_of_true trivial (by simp)
  | cons entry rest ih => rw [WellFormedEntries, ih, List.forall_mem_cons]

theorem WellFormed.putEntry {entries : Entries} {name : String} {node : FileTree}
    (h : (FileTree.directory entries).WellFormed) (hnode : node.WellFormed) :
    (FileTree.directory (putEntry name node entries)).WellFormed := by
  rw [WellFormed] at h ⊢
  refine ⟨nodup_keys_putEntry h.1, wellFormedEntries_iff.mpr fun entry hentry => ?_⟩
  -- an entry is the new one, or it was there before
  have hlookup := lookup_of_mem (nodup_keys_putEntry h.1) hentry
  by_cases hname : entry.1 = name
  · rw [hname, lookup_putEntry_self, Option.some_inj] at hlookup
    exact hlookup ▸ hnode
  · rw [lookup_putEntry_of_ne hname] at hlookup
    exact h.2.of_lookup hlookup

/-- A change to a directory keeps a tree free of repeated names if it keeps the directory so. -/
theorem WellFormed.updateEntries {change : Entries → Entries} {node : FileTree} {place : Location}
    {entries : Entries} (h : node.WellFormed) (hplace : node.at? place = some (.directory entries))
    (hchange : (FileTree.directory (change entries)).WellFormed) :
    (node.updateEntries change place).WellFormed := by
  -- only the directories on the way have another entry, and it takes the place of the old one
  induction place generalizing node with
  | nil =>
    rw [at?_nil, Option.some_inj] at hplace
    rw [hplace, updateEntries_nil]
    exact hchange
  | cons name rest ih =>
    rw [at?_cons] at hplace
    obtain ⟨child, hchild, hrest⟩ := Option.bind_eq_some_iff.mp hplace
    cases node with
    | file content | link target => cases hchild
    | directory others =>
      rw [child?_directory] at hchild
      have hinside : child.WellFormed := by
        rw [WellFormed] at h
        exact h.2.of_lookup hchild
      rw [FileTree.updateEntries, hchild]
      exact h.putEntry (ih hinside hrest)

end FileTree

/-- A directory with one entry has links only where the entry has some. -/
theorem FileTree.no_link_of_singleton {name : String} {node : FileTree}
    (h : ∀ location target, node.at? location ≠ some (.link target)) (location : Location)
    (target : Path) : (FileTree.directory [(name, node)]).at? location ≠ some (.link target) := by
  cases location with
  | nil =>
    rw [at?_nil]
    simp
  | cons first rest =>
    rw [at?_cons, child?_directory, List.lookup_cons]
    cases first == name with
    | true => exact h rest target
    | false => simp

/-! ## Systems without links -/

namespace System

/-- A system has no links, no directory in it lists a name twice, and the directory in which it
works is there. -/
structure Linkless (system : System) : Prop where
  wellFormed : system.tree.WellFormed
  no_link : ∀ location target, system.tree.at? location ≠ some (.link target)
  working : ∃ entries, system.tree.at? system.workingDirectory = some (.directory entries)

/-- A path is about the entry of its last name in the directory to which its other segments lead,
whether or not there is such an entry. -/
def Denotes (system : System) (path : Path) (location : Location) : Prop :=
  ∃ above directory name, path.segments = above ++ [name] ∧ IsName name ∧
    Leads system.tree linkLimit (system.start path) above directory ∧
    location = directory ++ [name]

end System

/-- A walk to a file enters directories until the last segment names the file. -/
theorem leads_of_follow_file {tree : FileTree}
    (hlinks : ∀ location target, tree.at? location ≠ some (.link target)) {followsLast : Bool}
    {links : Nat} {place goal : Location} {segments : List String} {content : ByteArray}
    (hplace : ∃ entries, tree.at? place = some (.directory entries))
    (hgoal : tree.at? goal = some (.file content))
    (h : follow tree followsLast links place segments = .ok goal) :
    ∃ above directory name, segments = above ++ [name] ∧ IsName name ∧
      Leads tree links place above directory ∧ goal = directory ++ [name] := by
  fun_induction follow tree followsLast links place segments with
  | case1 links place =>
    -- the walk is over in a directory
    obtain ⟨entries, hentries⟩ := hplace
    rw [Except.ok.inj h, hgoal] at hentries
    cases hentries
  | case2 links place segment rest hblank ih =>
    obtain ⟨above, directory, name, hsegments, hname, hleads, hdirectory⟩ := ih hplace h
    exact ⟨segment :: above, directory, name, by rw [hsegments, List.cons_append], hname,
      .blank hblank hleads, hdirectory⟩
  | case3 links place rest _ ih =>
    obtain ⟨entries, hentries⟩ := hplace
    -- what is above a directory is one as well
    have hparent : ∃ entries', tree.at? place.dropLast = some (.directory entries') := by
      obtain ⟨below, hbelow⟩ := List.dropLast_prefix place
      exact FileTree.exists_directory_of_append (hbelow ▸ hentries)
    obtain ⟨above, directory, name, hsegments, hname, hleads, hdirectory⟩ := ih hparent h
    exact ⟨".." :: above, directory, name, by rw [hsegments, List.cons_append], hname,
      .parent hleads, hdirectory⟩
  | case4 | case5 | case8 => cases h
  | case6 links place segment rest hblank hparent hlimit next inside hnode ih =>
    obtain ⟨above, directory, name, hsegments, hname, hleads, hdirectory⟩ := ih ⟨inside, hnode⟩ h
    exact ⟨segment :: above, directory, name, by rw [hsegments, List.cons_append], hname,
      .directory (isName_of_not hblank hparent hlimit) hnode hleads, hdirectory⟩
  | case7 links place segment rest hblank hparent hlimit next content hnode hlast =>
    -- the last segment names the file in the directory that has been reached
    rw [List.isEmpty_iff] at hlast
    rw [hlast]
    exact ⟨[], place, segment, rfl, isName_of_not hblank hparent hlimit, .here links place,
      (Except.ok.inj h).symm⟩
  -- the other cases are those of links
  | case9 | case10 | case11 => exact absurd ‹tree.at? _ = some (.link _)› (hlinks _ _)

namespace System

variable {system : System} {path : Path} {location directory : Location} {entries : Entries}
  {name text : String}

namespace Linkless

/-- **A path that leads to a file** is about that file. -/
theorem denotes_of_resolve (h : system.Linkless) {followsLast : Bool} {content : ByteArray}
    (hfile : system.tree.at? location = some (.file content))
    (hresolve : system.resolve path followsLast = .ok location) :
    system.Denotes path location := by
  have hstart : ∃ entries, system.tree.at? (system.start path) = some (.directory entries) := by
    obtain ⟨entries, hentries⟩ := h.working
    rw [start]
    split
    · -- the top is above the directory in use
      rw [← List.nil_append system.workingDirectory] at hentries
      exact FileTree.exists_directory_of_append hentries
    · exact ⟨entries, hentries⟩
  rw [resolve] at hresolve
  split at hresolve
  · cases hresolve
  · exact leads_of_follow_file h.no_link hstart hfile hresolve

theorem lookup_ne_link (h : system.Linkless)
    (hentries : system.tree.at? directory = some (.directory entries)) (target : Path) :
    entries.lookup name ≠ some (.link target) := by
  intro hlookup
  rw [← FileTree.at?_entry hentries] at hlookup
  exact h.no_link (directory ++ [name]) target hlookup

/-- **A text that is written** is a file, and leaves no links if there were none. -/
theorem withText (h : system.Linkless)
    (hentries : system.tree.at? directory = some (.directory entries))
    (hinside : ∀ inside, entries.lookup name ≠ some (.directory inside)) (text : String) :
    (system.withText directory entries name text).Linkless where
  wellFormed := by
    have hdirectory : (FileTree.directory entries).WellFormed := h.wellFormed.of_at? hentries
    have hfile : (FileTree.file text.toUTF8).WellFormed := trivial
    exact h.wellFormed.updateEntries hentries (hdirectory.putEntry hfile)
  no_link location target hlink := by
    by_cases hlocation : location = directory ++ [name]
    · rw [hlocation, at?_withText hentries] at hlink
      cases hlink
    · have hsee : (system.withText directory entries name text).tree.see? location =
          system.tree.see? location := see?_withText hentries hinside hlocation
      exact h.no_link location target
        ((FileTree.at?_eq_iff_of_see?_eq hsee (by nofun)).mp hlink)
  working := by
    obtain ⟨inside, hworking⟩ := h.working
    -- the file is not put in the place of the directory in use
    have hplace : system.workingDirectory ≠ directory ++ [name] := by
      intro heq
      rw [heq, FileTree.at?_entry hentries] at hworking
      exact hinside inside hworking
    have hsight : (system.withText directory entries name text).tree.see? system.workingDirectory =
        system.tree.see? system.workingDirectory := see?_withText hentries hinside hplace
    rw [FileTree.see?_eq_directory_iff.mpr ⟨inside, hworking⟩] at hsight
    exact FileTree.see?_eq_directory_iff.mp hsight

/-- An entry of a directory that is no directory is a file, if it is there. -/
theorem exists_lookup_eq (h : system.Linkless)
    (hentries : system.tree.at? directory = some (.directory entries))
    (hinside : ∀ inside, entries.lookup name ≠ some (.directory inside)) :
    ∃ content? : Option ByteArray, entries.lookup name = content?.map .file := by
  cases hlookup : entries.lookup name with
  | none => exact ⟨none, rfl⟩
  | some node =>
    cases node with
    | file content => exact ⟨some content, rfl⟩
    | directory inside => exact absurd hlookup (hinside inside)
    | link target => exact absurd hlookup (h.lookup_ne_link hentries target)

end Linkless

namespace Denotes

/-- The name of the place that a path is about is the file name of the path. -/
theorem fileName? (h : system.Denotes path (directory ++ [name])) : path.fileName? = some name := by
  obtain ⟨above, place, last, hsegments, hlast, -, hlocation⟩ := h
  have hname : [name] = [last] := (List.append_inj' hlocation rfl).2
  rw [(List.cons.inj hname).1]
  exact Path.fileName?_of_segments hsegments hlast

/-- A path is about the same place in a system with the same directories and links. -/
theorem of_passable {other : System} (hpassable : Passable system.tree other.tree)
    (hworking : other.workingDirectory = system.workingDirectory)
    (h : system.Denotes path location) : other.Denotes path location := by
  obtain ⟨above, place, last, hsegments, hlast, hleads, hlocation⟩ := h
  have hstart : other.start path = system.start path := by rw [start, start, hworking]
  exact ⟨above, place, last, hsegments, hlast, hstart ▸ hleads.of_passable hpassable, hlocation⟩

end Denotes

/-! ## A text that is written -/

/-- A file is put under a name without slashes. -/
theorem isName_of_targetName (hname : system.targetName path = .ok name) :
    IsName name ∧ '/' ∉ name.toList := by
  obtain ⟨above, hsegments, hname⟩ := segments_of_targetName hname
  have hmem : name ∈ path.segments := by simp [hsegments]
  exact ⟨hname, Path.slash_not_mem_segments hmem⟩

/-- A file is put at the place that its path is about. -/
theorem denotes_of_targetName (hname : system.targetName path = .ok name)
    (hresolve : system.resolve (directoryOf path) true = .ok directory)
    (hentries : system.tree.at? directory = some (.directory entries)) :
    system.Denotes path (directory ++ [name]) := by
  obtain ⟨above, hsegments, hname⟩ := segments_of_targetName hname
  exact ⟨above, directory, name, hsegments, hname,
    leads_of_directoryOf hsegments hname hresolve hentries, rfl⟩

/-- What was in the file before, if it was there. -/
theorem exchanged_withText (hentries : system.tree.at? directory = some (.directory entries))
    {content? : Option ByteArray} (hlookup : entries.lookup name = content?.map .file) :
    (system.withText directory entries name text).exchanged directory name content? = system := by
  have hback : setEntry name (content?.map .file) (putEntry name (.file text.toUTF8) entries) =
      entries := by
    cases content? with
    | none => exact removeEntry_putEntry (lookup_eq_none_iff_not_mem_keys.mp hlookup) _
    | some content =>
      show putEntry name (.file content) (putEntry name (.file text.toUTF8) entries) = entries
      rw [putEntry_putEntry, putEntry_of_lookup hlookup]
  have htree : ((system.tree.updateEntries (fun _ => putEntry name (.file text.toUTF8) entries)
      directory).updateEntries (setEntry name (content?.map .file)) directory) = system.tree := by
    rw [FileTree.updateEntries_updateEntries]
    exact FileTree.updateEntries_self hentries hback
  rw [System.withText, exchanged, htree]

@[simp] theorem workingDirectory_withText (system : System) (directory : Location)
    (entries : Entries) (name text : String) :
    (system.withText directory entries name text).workingDirectory = system.workingDirectory := rfl

/-- The second of two texts in one file is the one that is left. -/
theorem withText_withText (system : System) (directory : Location) (entries : Entries)
    (name text text' : String) :
    (system.withText directory entries name text).withText directory
        (putEntry name (.file text.toUTF8) entries) name text' =
      system.withText directory entries name text' := by
  have htree := FileTree.updateEntries_updateEntries
    (fun _ => putEntry name (.file text.toUTF8) entries)
    (fun _ => putEntry name (.file text'.toUTF8) (putEntry name (.file text.toUTF8) entries))
    system.tree directory
  rw [putEntry_putEntry] at htree
  rw [System.withText, System.withText, System.withText, putEntry_putEntry, htree]
  rfl

/-- **A file that has been replaced** can be replaced again. -/
theorem Linkless.replaceFile_withText (h : system.Linkless) {pieces : List String}
    (hname : system.targetName path = .ok name)
    (hresolve : system.resolve (directoryOf path) true = .ok directory)
    (hentries : system.tree.at? directory = some (.directory entries))
    (hinside : ∀ inside, entries.lookup name ≠ some (.directory inside)) :
    (system.withText directory entries name text).replaceFile path pieces =
      .ok (system.withText directory entries name (String.join pieces)) := by
  have hresolve' : (system.withText directory entries name text).resolve (directoryOf path) true =
      .ok directory :=
    resolve_withText hentries hinside (h.lookup_ne_link hentries) hentries hresolve
  have hentries' : (system.withText directory entries name text).tree.at? directory =
      some (.directory (putEntry name (.file text.toUTF8) entries)) :=
    FileTree.at?_updateEntries_self _ hentries
  have hname' : (system.withText directory entries name text).targetName path = .ok name :=
    targetName_eq_ok_iff.mpr (segments_of_targetName hname)
  -- the file that was written is no directory either
  have hinside' : ∀ inside, (putEntry name (.file text.toUTF8) entries).lookup name ≠
      some (.directory inside) := by
    intro inside
    rw [lookup_putEntry_self]
    simp
  rw [replaceFile_eq_ok hresolve' hentries' hname' hinside', withText_withText]

end System

end Mosaic.Files
