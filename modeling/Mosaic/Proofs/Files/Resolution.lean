import Mosaic.Proofs.Files.Path
import Mosaic.Proofs.Files.Tree

/-!
# Where paths lead

A walk that ends at a directory passes through directories and links only. What it finds on
its way decides where it ends, so that it ends at the same place in every tree that has the
same directories and links there.

* `IsName`: the segments that name an entry of a directory.
* `Leads`: the walks that end at a directory, segment by segment.
* `leads_of_follow`, `follow_of_leads`: they are what `follow` does.
* `Leads.of_passable`: a walk in another tree.
* `System.leads_of_directoryOf`, `System.resolve_join`: the last name of a path.
-/

namespace Mosaic.Files

/-- Whether a segment names an entry of a directory. -/
def IsName (segment : String) : Prop :=
  segment ≠ "" ∧ segment ≠ "." ∧ segment ≠ ".." ∧ segment.utf8ByteSize ≤ nameLimit

instance : DecidablePred IsName := fun _ => inferInstanceAs (Decidable (_ ∧ _))

/-- Where a link leads from: its own directory, or the top if its target is absolute. -/
def linkStart (place : Location) (target : Path) : Location :=
  if target.isAbsolute then [] else place

variable {tree : FileTree}

/-! ## One segment -/

section

variable {followsLast : Bool} {links : Nat} {place : Location} {segment : String}
  {rest : List String}

theorem follow_nil : follow tree followsLast links place [] = .ok place := by
  rw [follow]

theorem follow_blank (h : segment = "" ∨ segment = ".") :
    follow tree followsLast links place (segment :: rest) =
      follow tree followsLast links place rest := by
  rw [follow, if_pos h]

theorem follow_parent :
    follow tree followsLast links place (".." :: rest) =
      follow tree followsLast links place.dropLast rest := by
  rw [follow, if_neg (by decide), if_pos rfl]

/-- A segment that names an entry leads to what that entry is. -/
theorem follow_name (h : IsName segment) :
    follow tree followsLast links place (segment :: rest) =
      match tree.at? (place ++ [segment]) with
      | none => .error .missing
      | some (.directory _) => follow tree followsLast links (place ++ [segment]) rest
      | some (.file _) => if rest.isEmpty then .ok (place ++ [segment]) else .error .notDirectory
      | some (.link target) =>
        if rest.isEmpty && !followsLast then .ok (place ++ [segment])
        else
          match links with
          | 0 => .error .tooManyLinks
          | links + 1 =>
            follow tree followsLast links (linkStart place target) (target.segments ++ rest) := by
  obtain ⟨hempty, hdot, hdots, hlimit⟩ := h
  rw [follow, if_neg (not_or.mpr ⟨hempty, hdot⟩), if_neg hdots, if_neg (Nat.not_lt.mpr hlimit)]
  rfl

theorem isName_of_not (hblank : ¬(segment = "" ∨ segment = ".")) (hparent : segment ≠ "..")
    (hlimit : ¬nameLimit < segment.utf8ByteSize) : IsName segment := by
  rw [not_or] at hblank
  exact ⟨hblank.1, hblank.2, hparent, Nat.not_lt.mp hlimit⟩

end

/-! ## Walks -/

/-- The walk along some segments from one directory to another, with at most so many links on
the way. -/
inductive Leads (tree : FileTree) : Nat → Location → List String → Location → Prop
  | here (links : Nat) (place : Location) : Leads tree links place [] place
  | blank {links : Nat} {place goal : Location} {segment : String} {rest : List String} :
    segment = "" ∨ segment = "." → Leads tree links place rest goal →
    Leads tree links place (segment :: rest) goal
  | parent {links : Nat} {place goal : Location} {rest : List String} :
    Leads tree links place.dropLast rest goal → Leads tree links place (".." :: rest) goal
  | directory {links : Nat} {place goal : Location} {segment : String} {rest : List String}
      {entries : Entries} :
    IsName segment → tree.at? (place ++ [segment]) = some (.directory entries) →
    Leads tree links (place ++ [segment]) rest goal →
    Leads tree links place (segment :: rest) goal
  | link {links : Nat} {place goal : Location} {segment : String} {rest : List String}
      {target : Path} :
    IsName segment → tree.at? (place ++ [segment]) = some (.link target) →
    Leads tree links (linkStart place target) (target.segments ++ rest) goal →
    Leads tree (links + 1) place (segment :: rest) goal

/-- **Every way to a directory** is such a walk. -/
theorem leads_of_follow {links : Nat} {place goal : Location} {segments : List String}
    {entries : Entries} (hgoal : tree.at? goal = some (.directory entries))
    (h : follow tree true links place segments = .ok goal) :
    Leads tree links place segments goal := by
  fun_induction follow tree true links place segments with
  | case1 links place =>
    rw [Except.ok.inj h]
    exact .here links goal
  | case2 links place segment rest hblank ih => exact .blank hblank (ih h)
  | case3 links place rest _ ih => exact .parent (ih h)
  | case4 | case5 | case8 | case10 => cases h
  | case6 links place segment rest hblank hparent hlimit next inside hnode ih =>
    exact .directory (isName_of_not hblank hparent hlimit) hnode (ih h)
  | case7 links place segment rest hblank hparent hlimit next content hnode =>
    -- a walk to a file does not end at a directory
    rw [← Except.ok.inj h, hnode] at hgoal
    cases hgoal
  | case9 links place segment rest hblank hparent hlimit next target hnode hlast =>
    rw [Bool.not_true, Bool.and_false] at hlast
    cases hlast
  | case11 place segment rest hblank hparent hlimit next target hnode hlast links start ih =>
    exact .link (isName_of_not hblank hparent hlimit) hnode (ih h)

/-- **Such a walk is followed**, whatever segments come after it, and also a link at its end if
that is asked for. -/
theorem follow_of_leads {links : Nat} {place goal : Location} {segments more : List String}
    {followsLast : Bool} (h : Leads tree links place segments goal)
    (hmore : more ≠ [] ∨ followsLast = true) :
    ∃ left, follow tree followsLast links place (segments ++ more) =
      follow tree followsLast left goal more := by
  induction h with
  | here links place => exact ⟨links, rfl⟩
  | blank hblank _ ih =>
    obtain ⟨left, hleft⟩ := ih
    exact ⟨left, by rw [List.cons_append, follow_blank hblank, hleft]⟩
  | parent _ ih =>
    obtain ⟨left, hleft⟩ := ih
    exact ⟨left, by rw [List.cons_append, follow_parent, hleft]⟩
  | directory hname hnode _ ih =>
    obtain ⟨left, hleft⟩ := ih
    refine ⟨left, ?_⟩
    rw [List.cons_append, follow_name hname, hnode]
    exact hleft
  | @link links place goal segment rest target hname hnode _ ih =>
    obtain ⟨left, hleft⟩ := ih
    -- a link on the way is followed, and one at the end if that is asked for
    have hlast : ((rest ++ more).isEmpty && !followsLast) = false := by
      rcases hmore with hmore | hfollows
      · rw [List.isEmpty_eq_false_iff.mpr (List.append_ne_nil_of_right_ne_nil rest hmore)]
        rfl
      · rw [hfollows, Bool.not_true, Bool.and_false]
    refine ⟨left, ?_⟩
    rw [List.cons_append, follow_name hname, hnode]
    simp only [hlast, Bool.false_eq_true, if_false]
    rw [← List.append_assoc]
    exact hleft

/-! ## Segments that stand for nothing -/

theorem leads_blanks {links : Nat} {place : Location} {blanks : List String}
    (hblanks : ∀ s ∈ blanks, s = "" ∨ s = ".") : Leads tree links place blanks place := by
  induction blanks with
  | nil => exact .here links place
  | cons segment rest ih =>
    rw [List.forall_mem_cons] at hblanks
    exact .blank hblanks.1 (ih hblanks.2)

theorem Leads.append_blanks {links : Nat} {place goal : Location} {segments blanks : List String}
    (h : Leads tree links place segments goal) (hblanks : ∀ s ∈ blanks, s = "" ∨ s = ".") :
    Leads tree links place (segments ++ blanks) goal := by
  induction h with
  | here links place => exact leads_blanks hblanks
  | blank hblank _ ih => exact .blank hblank ih
  | parent _ ih => exact .parent ih
  | directory hname hnode _ ih => exact .directory hname hnode ih
  | link hname hnode _ ih =>
    rw [List.append_assoc] at ih
    exact .link hname hnode ih

theorem Leads.of_append_blanks {links : Nat} {place goal : Location} {segments blanks : List String}
    (h : Leads tree links place (segments ++ blanks) goal)
    (hblanks : ∀ s ∈ blanks, s = "" ∨ s = ".") : Leads tree links place segments goal := by
  -- the induction is on the walk; each step takes the first of the segments, or of the blanks
  generalize hall : segments ++ blanks = all at h
  induction h generalizing segments blanks with
  | here links place =>
    rw [(List.append_eq_nil_iff.mp hall).1]
    exact .here links place
  | blank hblank hrest ih =>
    rcases List.append_eq_cons_iff.mp hall with ⟨rfl, hcons⟩ | ⟨kept, rfl, hkept⟩
    · rw [hcons, List.forall_mem_cons] at hblanks
      exact ih hblanks.2 rfl
    · exact .blank hblank (ih hblanks hkept.symm)
  | parent hrest ih =>
    rcases List.append_eq_cons_iff.mp hall with ⟨rfl, hcons⟩ | ⟨kept, rfl, hkept⟩
    · rw [hcons, List.forall_mem_cons] at hblanks
      exact absurd hblanks.1 (by decide)
    · exact .parent (ih hblanks hkept.symm)
  | directory hname hnode hrest ih =>
    rcases List.append_eq_cons_iff.mp hall with ⟨rfl, hcons⟩ | ⟨kept, rfl, hkept⟩
    · rw [hcons, List.forall_mem_cons] at hblanks
      exact absurd hblanks.1 (not_or.mpr ⟨hname.1, hname.2.1⟩)
    · exact .directory hname hnode (ih hblanks hkept.symm)
  | link hname hnode hrest ih =>
    rcases List.append_eq_cons_iff.mp hall with ⟨rfl, hcons⟩ | ⟨kept, rfl, hkept⟩
    · rw [hcons, List.forall_mem_cons] at hblanks
      exact absurd hblanks.1 (not_or.mpr ⟨hname.1, hname.2.1⟩)
    · refine .link hname hnode (ih hblanks ?_)
      rw [hkept, List.append_assoc]

/-! ## Other trees -/

/-- Each directory and each link of a tree stands in another tree as well, though the entries
of a directory may differ. -/
structure Passable (tree other : FileTree) : Prop where
  directory : ∀ (place : Location) (entries : Entries),
    tree.at? place = some (.directory entries) → ∃ entries', other.at? place = some (.directory entries')
  link : ∀ (place : Location) (target : Path),
    tree.at? place = some (.link target) → other.at? place = some (.link target)

/-- **A walk leads to the same place** in a tree with the same directories and links. -/
theorem Leads.of_passable {other : FileTree} (hpassable : Passable tree other) {links : Nat}
    {place goal : Location} {segments : List String} (h : Leads tree links place segments goal) :
    Leads other links place segments goal := by
  induction h with
  | here links place => exact .here links place
  | blank hblank _ ih => exact .blank hblank ih
  | parent _ ih => exact .parent ih
  | directory hname hnode _ ih =>
    obtain ⟨entries, hentries⟩ := hpassable.directory _ _ hnode
    exact .directory hname hentries ih
  | link hname hnode _ ih => exact .link hname (hpassable.link _ _ hnode) ih

/-- An entry that is entered, or that is not a file, is itself no file. -/
theorem ne_file_of_at? {child node : FileTree} {rest : Location} (h : child.at? rest = some node)
    (hnode : ∀ content, node ≠ .file content) (content : ByteArray) : child ≠ .file content := by
  rintro rfl
  cases rest with
  | nil =>
    rw [FileTree.at?_nil, Option.some_inj] at h
    exact hnode content h.symm
  | cons name rest =>
    rw [FileTree.at?_cons, FileTree.child?_file] at h
    cases h

/-- What is no file stays where it is when a directory is changed, if that is so for the entries
of that directory. -/
theorem at?_updateEntries_of_ne_file {change : Entries → Entries} {place : Location}
    {entries : Entries} (hplace : tree.at? place = some (.directory entries))
    (hkept : ∀ name node, entries.lookup name = some node → (∀ content, node ≠ .file content) →
      (change entries).lookup name = some node)
    {other : Location} {node : FileTree} (hother : tree.at? other = some node)
    (hnode : ∀ content, node ≠ .file content) :
    (tree.updateEntries change place).at? other =
      some (if other <+: place then node.updateEntries change (place.drop other.length)
        else node) := by
  -- the other place is above the directory, below it, or beside it
  by_cases habove : other <+: place
  · rw [if_pos habove, FileTree.at?_updateEntries_of_prefix change habove, hother]
    rfl
  · rw [if_neg habove]
    by_cases hbelow : place <+: other
    · obtain ⟨below, rfl⟩ := hbelow
      rw [FileTree.at?_updateEntries_append change hplace]
      rw [FileTree.at?_append, hplace, Option.bind_some] at hother
      cases below with
      | nil =>
        rw [List.append_nil] at habove
        exact absurd (List.prefix_refl place) habove
      | cons name rest =>
        rw [FileTree.at?_cons, FileTree.child?_directory] at hother ⊢
        obtain ⟨child, hchild, hrest⟩ := Option.bind_eq_some_iff.mp hother
        rw [hkept name child hchild (ne_file_of_at? hrest hnode)]
        exact hrest
    · rw [FileTree.at?_updateEntries_of_not_prefix change hbelow habove]
      exact hother

/-- **Changing a directory** keeps all ways open if it keeps the directories and links in it. -/
theorem passable_updateEntries {change : Entries → Entries} {place : Location}
    {entries : Entries} (hplace : tree.at? place = some (.directory entries))
    (hkept : ∀ name node, entries.lookup name = some node → (∀ content, node ≠ .file content) →
      (change entries).lookup name = some node) :
    Passable tree (tree.updateEntries change place) where
  directory other inside hother := by
    rw [at?_updateEntries_of_ne_file hplace hkept hother (by simp)]
    split
    · obtain ⟨inside', hinside⟩ := FileTree.updateEntries_directory change inside
        (place.drop other.length)
      exact ⟨inside', congrArg some hinside⟩
    · exact ⟨inside, rfl⟩
  link other target hother := by
    rw [at?_updateEntries_of_ne_file hplace hkept hother (by simp), FileTree.updateEntries_link,
      ite_self]

/-! ## Paths -/

namespace System

/-- Where a path starts. -/
def start (system : System) (path : Path) : Location :=
  if path.isAbsolute then [] else system.workingDirectory

variable {system : System} {path : Path} {goal : Location} {entries : Entries}

/-- A path to a directory is a walk along its segments. -/
theorem leads_of_resolve (hgoal : system.tree.at? goal = some (.directory entries))
    (h : system.resolve path true = .ok goal) :
    Leads system.tree linkLimit (system.start path) path.segments goal := by
  rw [resolve] at h
  split at h
  · cases h
  · exact leads_of_follow hgoal h

theorem resolve_of_leads (hpath : path ≠ "")
    (h : Leads system.tree linkLimit (system.start path) path.segments goal) :
    system.resolve path true = .ok goal := by
  obtain ⟨left, hleft⟩ := follow_of_leads h (.inr rfl)
  rw [List.append_nil, follow_nil] at hleft
  rw [resolve, if_neg hpath]
  exact hleft

theorem ne_empty_of_segments {above : List String} {name : String}
    (hsegments : path.segments = above ++ [name]) (hname : IsName name) : path ≠ "" := by
  intro hempty
  rw [hempty] at hsegments
  have hlast : [] ++ [""] = above ++ [name] := hsegments
  exact hname.1 (List.cons.inj (List.append_inj' hlast rfl).2).1.symm

/-- The last segment of a path is looked up where the others lead. -/
theorem resolve_eq_follow {above : List String} {name : String}
    (hsegments : path.segments = above ++ [name]) (hname : IsName name)
    (hway : Leads system.tree linkLimit (system.start path) above goal) :
    ∃ links, system.resolve path true = follow system.tree true links goal [name] := by
  rw [resolve, if_neg (ne_empty_of_segments hsegments hname), hsegments]
  exact follow_of_leads hway (.inr rfl)

/-- **The segments of a path** but the last lead to the directory of the path. -/
theorem leads_of_directoryOf {above : List String} {name : String}
    (hsegments : path.segments = above ++ [name]) (hname : IsName name)
    (hdirectory : system.resolve (directoryOf path) true = .ok goal)
    (hgoal : system.tree.at? goal = some (.directory entries)) :
    Leads system.tree linkLimit (system.start path) above goal := by
  have hpart : Path.laterPart? name ≠ none :=
    fun hnone => not_or.mpr ⟨hname.1, hname.2.1⟩ (Path.laterPart?_eq_none_iff.mp hnone)
  obtain ⟨kept, left, right, habove, hsame, hblanks, habsolute⟩ :=
    Path.segments_directoryOf hsegments hpart
  have hstart : system.start (directoryOf path) = system.start path := by
    rw [start, start, habsolute]
  -- the directory is reached along all segments but the last
  have hleads := leads_of_resolve hgoal hdirectory
  rw [hsame, hstart] at hleads
  have hkept := hleads.of_append_blanks fun s hs => hblanks s (List.mem_append_right left hs)
  have hway := hkept.append_blanks fun s hs => hblanks s (List.mem_append_left right hs)
  rwa [← habove] at hway

/-- A walk to a file of a directory. -/
theorem follow_file {links : Nat} {name : String} {content : ByteArray} (hname : IsName name)
    (hgoal : system.tree.at? goal = some (.directory entries))
    (hfile : entries.lookup name = some (.file content)) :
    follow system.tree true links goal [name] = .ok (goal ++ [name]) := by
  have hnode : system.tree.at? (goal ++ [name]) = some (.file content) := by
    rw [FileTree.at?_entry hgoal, hfile]
  rw [follow_name hname, hnode]
  rfl

/-- A path leads to the file of its last name in its directory. -/
theorem resolve_of_directoryOf {above : List String} {name : String} {content : ByteArray}
    (hsegments : path.segments = above ++ [name]) (hname : IsName name)
    (hdirectory : system.resolve (directoryOf path) true = .ok goal)
    (hgoal : system.tree.at? goal = some (.directory entries))
    (hfile : entries.lookup name = some (.file content)) :
    system.resolve path true = .ok (goal ++ [name]) := by
  have hway := leads_of_directoryOf hsegments hname hdirectory hgoal
  obtain ⟨links, hresolve⟩ := resolve_eq_follow hsegments hname hway
  rw [hresolve, follow_file hname hgoal hfile]

/-- The path of a directory leads to a file of it when the name of the file is joined to it. -/
theorem resolve_join {name : String} {content : ByteArray} (hname : IsName name)
    (hslash : '/' ∉ name.toList) (hdirectory : system.resolve path true = .ok goal)
    (hgoal : system.tree.at? goal = some (.directory entries))
    (hfile : entries.lookup name = some (.file content)) :
    system.resolve (path.join name) true = .ok (goal ++ [name]) := by
  have hpath : path ≠ "" := by
    rintro rfl
    cases hdirectory
  obtain ⟨kept, blanks, hsegments, hblanks, hjoin, habsolute, -⟩ := Path.segments_join hpath hslash
  have hway := leads_of_resolve hgoal hdirectory
  rw [hsegments] at hway
  have hstart : system.start (path.join name) = system.start path := by
    rw [start, start, habsolute]
  obtain ⟨links, hresolve⟩ := resolve_eq_follow hjoin hname
    (hstart ▸ hway.of_append_blanks hblanks)
  rw [hresolve, follow_file hname hgoal hfile]

end System

end Mosaic.Files
