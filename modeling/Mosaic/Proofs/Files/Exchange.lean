import Mosaic.Proofs.Files.Sight

/-!
# One file with another content, or without it

A file of a system gets another content, or is taken away. All other files, links and directories
stay, and so does where paths lead, except for those that lead to the file itself.

* `System.overwritten`, `System.without`: the system with another content in the file, and
  without the file.
* `System.exchanged`: both in one, as a function of the content.
* `System.resolve_of_exchanged`, `System.resolve_exchanged`: where paths lead.
* `System.isDirectory_exchanged`, `System.readText_exchanged_iff`, `System.baseName?_exchanged`,
  `System.names_exchanged`: what is asked of the system.
-/

namespace Mosaic.Files

/-! ## Entries -/

/-- The entries with another node under a name, or with none. -/
def setEntry (name : String) (node? : Option FileTree) (entries : Entries) : Entries :=
  match node? with
  | some node => putEntry name node entries
  | none => removeEntry name entries

/-- What is set under a name is found there. -/
theorem lookup_setEntry_self (name : String) (node? : Option FileTree) (entries : Entries) :
    (setEntry name node? entries).lookup name = node? := by
  cases node? with
  | none => exact lookup_removeEntry_self name entries
  | some node => exact lookup_putEntry_self node entries

/-- Setting an entry leaves the other names as they were. -/
theorem lookup_setEntry_of_ne {name other : String} (h : other ≠ name) (node? : Option FileTree)
    (entries : Entries) : (setEntry name node? entries).lookup other = entries.lookup other := by
  cases node? with
  | none => exact lookup_removeEntry_of_ne h entries
  | some node => exact lookup_putEntry_of_ne h node entries

/-! ## The system -/

namespace System

/-- The system with another content in a file. -/
def overwritten (system : System) (directory : Location) (name : String) (content : ByteArray) :
    System :=
  { system with tree := system.tree.updateEntries (putEntry name (.file content)) directory }

/-- The system without a file. -/
def without (system : System) (directory : Location) (name : String) : System :=
  { system with tree := system.tree.updateEntries (removeEntry name) directory }

/-- The system with the given content in a file, or without the file. -/
def exchanged (system : System) (directory : Location) (name : String)
    (content? : Option ByteArray) : System :=
  { system with
    tree := system.tree.updateEntries (setEntry name (content?.map .file)) directory }

/-- To exchange a file for another one is to overwrite it. -/
theorem exchanged_some (system : System) (directory : Location) (name : String)
    (content : ByteArray) :
    system.exchanged directory name (some content) = system.overwritten directory name content :=
  rfl

/-- To exchange a file for nothing is to leave it out. -/
theorem exchanged_none (system : System) (directory : Location) (name : String) :
    system.exchanged directory name none = system.without directory name := rfl

variable {system : System} {directory : Location} {name : String} {content : ByteArray}
  {content? : Option ByteArray} {path : Path}
  (hfile : system.tree.at? (directory ++ [name]) = some (.file content))
include hfile

/-- With the content that it has, the file stays as it is. -/
theorem overwritten_self : system.overwritten directory name content = system := by
  obtain ⟨entries, hentries, hlookup⟩ := FileTree.entries_of_at? hfile
  rw [overwritten, FileTree.updateEntries_self hentries (putEntry_of_lookup hlookup)]

/-- In the place of the file there is what it was exchanged for. -/
theorem at?_exchanged :
    (system.exchanged directory name content?).tree.at? (directory ++ [name]) =
      content?.map .file := by
  obtain ⟨entries, hentries, -⟩ := FileTree.entries_of_at? hfile
  rw [exchanged, FileTree.at?_entry (FileTree.at?_updateEntries_self _ hentries),
    lookup_setEntry_self]

/-- Nothing but the file is different. -/
theorem see?_exchanged {location : Location} (hlocation : location ≠ directory ++ [name]) :
    (system.exchanged directory name content?).tree.see? location = system.tree.see? location := by
  obtain ⟨entries, hentries, hlookup⟩ := FileTree.entries_of_at? hfile
  refine FileTree.see?_updateEntries_of_ne hentries ?_ ?_
    (fun other hother => lookup_setEntry_of_ne hother _ entries) hlocation
  · intro inside
    rw [hlookup]
    simp
  · intro inside
    rw [lookup_setEntry_self]
    cases content? <;> simp

/-! ## Where paths lead -/

/-- What is no file stands elsewhere, and is there in both systems. -/
theorem see?_exchanged_iff {location : Location} {sight : Sight}
    (hsight : ∀ content, sight ≠ .file content) :
    (system.exchanged directory name content?).tree.see? location = some sight ↔
      system.tree.see? location = some sight := by
  by_cases hlocation : location = directory ++ [name]
  · subst hlocation
    rw [FileTree.see?, FileTree.see?, at?_exchanged hfile, hfile]
    refine iff_of_false ?_ fun h => hsight content (Option.some.inj h).symm
    cases content? with
    | none => simp
    | some other => exact fun h => hsight other (Option.some.inj h).symm
  · rw [see?_exchanged hfile hlocation]

/-- Every way that could be gone can be gone after the exchange. -/
theorem passable_exchanged :
    Passable system.tree (system.exchanged directory name content?).tree :=
  passable_of_see? (fun _ => (see?_exchanged_iff hfile (by simp)).mpr)
    fun _ _ => (see?_exchanged_iff hfile (by simp)).mpr

/-- The exchange opens no new way. -/
theorem passable_of_exchanged :
    Passable (system.exchanged directory name content?).tree system.tree :=
  passable_of_see? (fun _ => (see?_exchanged_iff hfile (by simp)).mp)
    fun _ _ => (see?_exchanged_iff hfile (by simp)).mp

/-- Nothing but directories, which may have the change inside, and the file is different. -/
theorem at?_exchanged_of_ne {location : Location} (hlocation : location ≠ directory ++ [name])
    (hnode : ∀ entries, system.tree.at? location ≠ some (.directory entries)) :
    (system.exchanged directory name content?).tree.at? location = system.tree.at? location := by
  have hsight : (system.exchanged directory name content?).tree.see? location =
      system.tree.see? location := see?_exchanged hfile hlocation
  cases hat : system.tree.at? location with
  | none =>
    rw [FileTree.see?_eq_none_iff.mpr hat] at hsight
    exact FileTree.see?_eq_none_iff.mp hsight
  | some node =>
    have hwhole : ∀ entries, node ≠ .directory entries := by
      rintro entries rfl
      exact hnode entries hat
    exact (FileTree.at?_eq_iff_of_see?_eq hsight hwhole).mpr hat

/-- No path leads elsewhere than before. -/
theorem resolve_of_exchanged {followsLast : Bool} {goal : Location}
    (h : (system.exchanged directory name content?).resolve path followsLast = .ok goal) :
    system.resolve path followsLast = .ok goal := by
  refine resolve_of_passable (passable_of_exchanged hfile) rfl (fun other hother => ?_) h
  -- a file that the path leads to now was there before, as the file itself or as another one
  by_cases hgoal : goal = directory ++ [name]
  · exact ⟨content, hgoal ▸ hfile⟩
  · exact ⟨other, (FileTree.at?_eq_iff_of_see?_eq (see?_exchanged hfile hgoal) (by nofun)).mp hother⟩

/-- A path that leads elsewhere still does, and one that leads to the file does if the file is
there. -/
theorem resolve_exchanged {followsLast : Bool} {goal : Location}
    (hgoal : goal = directory ++ [name] → content? ≠ none)
    (h : system.resolve path followsLast = .ok goal) :
    (system.exchanged directory name content?).resolve path followsLast = .ok goal := by
  refine resolve_of_passable (passable_exchanged hfile) rfl (fun other hother => ?_) h
  by_cases hplace : goal = directory ++ [name]
  · obtain ⟨new, hnew⟩ := Option.ne_none_iff_exists'.mp (hgoal hplace)
    exact ⟨new, by rw [hplace, at?_exchanged hfile, hnew]; rfl⟩
  · exact ⟨other, (FileTree.at?_eq_iff_of_see?_eq (see?_exchanged hfile hplace) (by nofun)).mpr hother⟩

/-! ## What is asked of the system -/

/-- What stands where a path leads. -/
theorem toOption_lookup_exchanged (path : Path) (followsLast : Bool) :
    ((system.exchanged directory name content?).lookup path followsLast).toOption =
      match system.resolve path followsLast with
      | .ok location => (system.exchanged directory name content?).tree.at? location
      | .error _ => none := by
  cases hlookup : (system.exchanged directory name content?).lookup path followsLast with
  | ok node =>
    obtain ⟨location, hresolve, hat⟩ := lookup_eq_ok_iff.mp hlookup
    rw [resolve_of_exchanged hfile hresolve]
    exact hat.symm
  | error fault =>
    -- nothing stands there, since it would have been found
    cases hbefore : system.resolve path followsLast with
    | error other => rfl
    | ok location =>
      by_contra hsome
      obtain ⟨node, hat⟩ := Option.ne_none_iff_exists'.mp (Ne.symm hsome)
      have hthere : location = directory ++ [name] → content? ≠ none := by
        rintro rfl rfl
        dsimp only at hat
        rw [at?_exchanged hfile] at hat
        cases hat
      have hfound := lookup_eq_ok_iff.mpr ⟨location, resolve_exchanged hfile hthere hbefore, hat⟩
      rw [hlookup] at hfound
      cases hfound

omit hfile in
/-- A path leads to a directory exactly if one is seen where it resolves to. -/
theorem isDirectory_iff :
    system.isDirectory path = true ↔ ∃ location,
      system.resolve path true = .ok location ∧ system.tree.see? location = some .directory := by
  rw [isDirectory]
  constructor
  · intro h
    split at h
    · next node hlookup =>
      obtain ⟨location, hresolve, hat⟩ := lookup_eq_ok_iff.mp hlookup
      refine ⟨location, hresolve, ?_⟩
      cases node with
      | file content | link target => cases h
      | directory entries => exact FileTree.see?_eq_directory_iff.mpr ⟨entries, hat⟩
    · cases h
  · rintro ⟨location, hresolve, hsight⟩
    obtain ⟨entries, hat⟩ := FileTree.see?_eq_directory_iff.mp hsight
    rw [lookup_eq_ok_iff.mpr ⟨location, hresolve, hat⟩]
    rfl

/-- The exchange of a file makes no directory and removes none. -/
theorem isDirectory_exchanged (path : Path) :
    (system.exchanged directory name content?).isDirectory path = system.isDirectory path := by
  rw [Bool.eq_iff_iff, isDirectory_iff, isDirectory_iff]
  constructor
  · rintro ⟨location, hresolve, hsight⟩
    exact ⟨location, resolve_of_exchanged hfile hresolve,
      (see?_exchanged_iff hfile (by simp)).mp hsight⟩
  · rintro ⟨location, hresolve, hsight⟩
    have hlocation : location ≠ directory ++ [name] := by
      rintro rfl
      rw [FileTree.see?, hfile] at hsight
      cases hsight
    exact ⟨location, resolve_exchanged hfile (absurd · hlocation) hresolve,
      (see?_exchanged_iff hfile (by simp)).mpr hsight⟩

/-- A text is read as before, unless it is that of the file. -/
theorem readText_exchanged_iff (hpath : system.resolve path true ≠ .ok (directory ++ [name]))
    {text : String} :
    (system.exchanged directory name content?).readText path = .ok text ↔
      system.readText path = .ok text := by
  rw [readText_eq_ok_iff, readText_eq_ok_iff]
  constructor
  · rintro ⟨location, found, hresolve, hat, hdecode⟩
    have hbefore := resolve_of_exchanged hfile hresolve
    have hlocation : location ≠ directory ++ [name] := fun heq => hpath (heq ▸ hbefore)
    exact ⟨location, found, hbefore,
      (FileTree.at?_eq_iff_of_see?_eq (see?_exchanged hfile hlocation) (by nofun)).mp hat, hdecode⟩
  · rintro ⟨location, found, hresolve, hat, hdecode⟩
    have hlocation : location ≠ directory ++ [name] := fun heq => hpath (heq ▸ hresolve)
    have hafter : (system.exchanged directory name content?).resolve path true = .ok location :=
      resolve_exchanged hfile (absurd · hlocation) hresolve
    exact ⟨location, found, hafter,
      (FileTree.at?_eq_iff_of_see?_eq (see?_exchanged hfile hlocation) (by nofun)).mpr hat, hdecode⟩

/-- The name of a path is the same, unless it is that of a link to the file. -/
theorem baseName?_exchanged
    (hpath : system.resolve path true = .ok (directory ++ [name]) → path.fileName? = some name) :
    (system.exchanged directory name content?).baseName? path = system.baseName? path := by
  rw [baseName?, baseName?]
  cases hbefore : system.resolve path true with
  | error fault =>
    -- a path that led nowhere still does
    cases hafter : (system.exchanged directory name content?).resolve path true with
    | error other => rfl
    | ok location =>
      rw [resolve_of_exchanged hfile hafter] at hbefore
      cases hbefore
  | ok location =>
    by_cases hlocation : location = directory ++ [name]
    · have hlast : location.getLast? = some name := by rw [hlocation, List.getLast?_concat]
      cases hafter : (system.exchanged directory name content?).resolve path true with
      | error fault => exact (hpath (hlocation ▸ hbefore)).trans hlast.symm
      | ok other =>
        have hsame := (resolve_of_exchanged hfile hafter).symm.trans hbefore
        rw [Except.ok.inj hsame]
    · rw [resolve_exchanged hfile (absurd · hlocation) hbefore]

omit hfile in
/-- The names in a directory, none if there is no directory. -/
def names (system : System) (path : Path) : List String :=
  match system.listDirectory path with
  | .ok entries => entries.map Prod.fst
  | .error _ => []

omit hfile in
/-- The names in a directory are those of its entries. -/
theorem names_of_at? {location : Location} {entries : Entries}
    (hresolve : system.resolve path true = .ok location)
    (hentries : system.tree.at? location = some (.directory entries)) :
    system.names path = entries.map Prod.fst := by
  rw [names, listDirectory_eq_ok_iff.mpr ⟨location, hresolve, hentries⟩]

omit hfile in
/-- Where there is no directory, there are no names. -/
theorem names_eq_nil (h : system.isDirectory path ≠ true) : system.names path = [] := by
  rw [names]
  cases hlist : system.listDirectory path with
  | error fault => rfl
  | ok entries =>
    obtain ⟨location, hresolve, hentries⟩ := listDirectory_eq_ok_iff.mp hlist
    exact absurd (isDirectory_iff.mpr
      ⟨location, hresolve, FileTree.see?_eq_directory_iff.mpr ⟨entries, hentries⟩⟩) h

/-- A directory stays where it is, and has the change inside if the file is below it. -/
theorem at?_exchanged_directory {location : Location} {entries : Entries}
    (hentries : system.tree.at? location = some (.directory entries)) :
    (system.exchanged directory name content?).tree.at? location =
      some (if location <+: directory then
        (FileTree.directory entries).updateEntries (setEntry name (content?.map .file))
          (directory.drop location.length)
        else .directory entries) := by
  obtain ⟨inside, hinside, hlookup⟩ := FileTree.entries_of_at? hfile
  refine at?_updateEntries_of_ne_file hinside (fun other node hnode hnofile => ?_) hentries (by simp)
  -- an entry that is no file has another name than the file
  have hother : other ≠ name := by
    rintro rfl
    rw [hlookup] at hnode
    exact hnofile content (Option.some.inj hnode).symm
  rw [lookup_setEntry_of_ne hother, hnode]

/-- Another directory has the same names. -/
theorem keys_exchanged {location : Location} {entries : Entries}
    (hlocation : location ≠ directory)
    (hentries : system.tree.at? location = some (.directory entries)) :
    ∃ entries', (system.exchanged directory name content?).tree.at? location =
      some (.directory entries') ∧ entries'.map Prod.fst = entries.map Prod.fst := by
  rw [at?_exchanged_directory hfile hentries]
  split
  · next habove =>
    -- the change is further down, behind one of the names
    obtain ⟨rest, rfl⟩ := habove
    cases rest with
    | nil => exact absurd (List.append_nil location).symm hlocation
    | cons first rest =>
      rw [List.drop_left]
      obtain ⟨entries', hchanged, hkeys⟩ :=
        FileTree.keys_updateEntries_cons (setEntry name (content?.map .file)) entries first rest
      exact ⟨entries', congrArg some hchanged, hkeys⟩
  · exact ⟨entries, rfl, rfl⟩

/-- The names in a directory are the same, up to the name of the file if it is not there. -/
theorem names_exchanged (path : Path) :
    (system.exchanged directory name content?).names path = system.names path ∨
      system.resolve path true = .ok directory ∧
        (system.exchanged directory name content?).names path =
          (system.names path).filter (· ≠ name) := by
  by_cases hthere : system.isDirectory path = true
  · obtain ⟨location, hresolve, hsight⟩ := isDirectory_iff.mp hthere
    obtain ⟨entries, hentries⟩ := FileTree.see?_eq_directory_iff.mp hsight
    -- the file itself is no directory
    have hplace : location ≠ directory ++ [name] := by
      rintro rfl
      rw [hfile] at hentries
      cases hentries
    have hafter : (system.exchanged directory name content?).resolve path true = .ok location :=
      resolve_exchanged hfile (absurd · hplace) hresolve
    rw [names_of_at? hresolve hentries]
    -- only the directory of the file can get other names
    by_cases hlocation : location = directory
    · subst hlocation
      obtain ⟨inside, hinside, hlookup⟩ := FileTree.entries_of_at? hfile
      obtain rfl : inside = entries := by
        rw [hinside] at hentries
        exact FileTree.directory.inj (Option.some.inj hentries)
      rw [names_of_at? hafter (FileTree.at?_updateEntries_self _ hinside)]
      cases content? with
      | none =>
        refine .inr ⟨hresolve, ?_⟩
        show (inside.filter (·.1 ≠ name)).map Prod.fst = _
        rw [List.filter_map]
        rfl
      | some new =>
        -- a new content keeps the name where it stands
        have hname : name ∈ inside.map Prod.fst :=
          lookup_isSome_iff_mem_keys.mp (hlookup ▸ rfl)
        refine .inl ?_
        show (putEntry name (.file new) inside).map Prod.fst = _
        rw [keys_putEntry, if_pos hname]
    · obtain ⟨entries', hentries', hkeys⟩ := keys_exchanged hfile hlocation hentries
      rw [names_of_at? hafter hentries', hkeys]
      exact .inl rfl
  · -- what is no directory does not become one
    have hnowhere := hthere
    rw [← isDirectory_exchanged hfile path] at hnowhere
    rw [names_eq_nil hthere, names_eq_nil hnowhere]
    exact .inl rfl

end System

end Mosaic.Files
