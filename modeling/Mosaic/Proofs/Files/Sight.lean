import Mosaic.Proofs.Files.Replacement

/-!
# What is seen of a tree

At a location one sees the content of a file, the target of a link, or that there is a
directory. Two trees that look alike everywhere hold the same files, links and directories; they
may differ only in the order in which directories list their entries, and in entries that an
earlier one of the same name hides.

* `FileTree.see?`: what is seen at a location.
* `FileTree.see?_eq_sight_iff`, `FileTree.at?_eq_iff_of_see?_eq`: files and links are seen whole.
* `FileTree.see?_updateEntries`, `FileTree.see?_updateEntries_of_ne`: what is seen after a change
  to a directory, and after a change to one of its entries.
* `follow_of_passable`, `System.resolve_of_passable`: a walk leads to the same place in a tree
  with the same directories and links, if its goal is still there.
* `Leads.of_blocked`: a walk in a tree where a file has taken the place of a link.
-/

namespace Mosaic.Files

/-- What there is to see of a node. -/
inductive Sight
  | file (content : ByteArray)
  | link (target : Path)
  | directory

namespace FileTree

def sight : FileTree → Sight
  | .file content => .file content
  | .link target => .link target
  | .directory _ => .directory

/-- What is seen at a location. -/
def see? (tree : FileTree) (location : Location) : Option Sight := (tree.at? location).map sight

variable {tree : FileTree} {location : Location}

theorem see?_eq_none_iff : tree.see? location = none ↔ tree.at? location = none :=
  Option.map_eq_none_iff

/-- **What is no directory** is seen as a whole. -/
theorem see?_eq_sight_iff {node : FileTree} (h : ∀ entries, node ≠ .directory entries) :
    tree.see? location = some node.sight ↔ tree.at? location = some node := by
  rw [see?, Option.map_eq_some_iff]
  constructor
  · rintro ⟨found, hfound, hsight⟩
    rw [hfound, Option.some_inj]
    cases node with
    | directory entries => exact absurd rfl (h entries)
    | file content | link target => cases found <;> simp_all [sight]
  · exact fun hnode => ⟨node, hnode, rfl⟩

/-- Two trees that look alike at a location have the same there, unless it is a directory. -/
theorem at?_eq_iff_of_see?_eq {other : FileTree} (hsee : other.see? location = tree.see? location)
    {node : FileTree} (h : ∀ entries, node ≠ .directory entries) :
    other.at? location = some node ↔ tree.at? location = some node := by
  rw [← see?_eq_sight_iff h, hsee, see?_eq_sight_iff h]

theorem see?_eq_directory_iff :
    tree.see? location = some .directory ↔
      ∃ entries, tree.at? location = some (.directory entries) := by
  rw [see?, Option.map_eq_some_iff]
  constructor
  · rintro ⟨node, hnode, hsight⟩
    cases node with
    | directory entries => exact ⟨entries, hnode⟩
    | file content | link target => cases hsight
  · rintro ⟨entries, h⟩
    exact ⟨_, h, rfl⟩

theorem see?_append (above below : Location) :
    tree.see? (above ++ below) = (tree.at? above).bind (·.see? below) := by
  rw [see?, at?_append, Option.map_bind]
  rfl

/-- Below a directory one sees what is seen below its entries. -/
theorem see?_directory_cons (entries : Entries) (name : String) (rest : Location) :
    (directory entries).see? (name :: rest) = (entries.lookup name).bind (·.see? rest) := by
  rw [see?, at?_cons, child?_directory, Option.map_bind]
  rfl

/-- Nothing is below what is no directory. -/
theorem see?_cons_of_not_directory {node : FileTree} (h : ∀ entries, node ≠ .directory entries)
    (name : String) (rest : Location) : node.see? (name :: rest) = none := by
  cases node with
  | file content | link target => rfl
  | directory entries => exact absurd rfl (h entries)

/-! ## Changes -/

section

variable {change : Entries → Entries} {place : Location} {entries : Entries}

theorem sight_updateEntries (node : FileTree) (rest : Location) :
    (node.updateEntries change rest).sight = node.sight := by
  cases node with
  | file content | link target => cases rest <;> rfl
  | directory inside =>
    obtain ⟨inside', hinside⟩ := updateEntries_directory change inside rest
    rw [hinside]
    rfl

/-- **Nothing else is seen** at a location after a directory has been changed, unless what is
seen there is below the directory and differs among its entries. -/
theorem see?_updateEntries (hplace : tree.at? place = some (.directory entries))
    (h : ∀ name rest, location = place ++ name :: rest →
      ((change entries).lookup name).bind (·.see? rest) =
        (entries.lookup name).bind (·.see? rest)) :
    (tree.updateEntries change place).see? location = tree.see? location := by
  by_cases habove : location <+: place
  · -- the directory itself, or one on the way to it
    rw [see?, see?, at?_updateEntries_of_prefix change habove, Option.map_map]
    exact Option.map_congr fun node _ => sight_updateEntries node _
  · by_cases hbelow : place <+: location
    · obtain ⟨below, rfl⟩ := hbelow
      cases below with
      | nil =>
        rw [List.append_nil] at habove
        exact absurd (List.prefix_refl place) habove
      | cons name rest =>
        rw [see?, at?_updateEntries_append change hplace, ← see?, see?_append, hplace,
          Option.bind_some, see?_directory_cons, see?_directory_cons]
        exact h name rest rfl
    · rw [see?, see?, at?_updateEntries_of_not_prefix change hbelow habove]

/-- A file is not touched if the entries of the directory are all kept. -/
theorem at?_updateEntries_file (hplace : tree.at? place = some (.directory entries))
    (hkept : ∀ name node, entries.lookup name = some node →
      (change entries).lookup name = some node)
    {content : ByteArray} (hfile : tree.at? location = some (.file content)) :
    (tree.updateEntries change place).at? location = some (.file content) := by
  have hsight : tree.see? location = some (.file content) :=
    (see?_eq_sight_iff (by nofun)).mpr hfile
  refine (at?_eq_iff_of_see?_eq (see?_updateEntries hplace ?_) (by nofun)).mpr hfile
  rintro name rest rfl
  -- what is seen below the directory is below one of its entries, which is kept
  rw [see?_append, hplace, Option.bind_some, see?_directory_cons] at hsight
  obtain ⟨node, hnode, -⟩ := Option.bind_eq_some_iff.mp hsight
  rw [hkept name node hnode, hnode]

/-- Only one location is different when one entry is changed, which is a directory neither
before nor after. -/
theorem see?_updateEntries_of_ne {name : String}
    (hplace : tree.at? place = some (.directory entries))
    (hbefore : ∀ inside, entries.lookup name ≠ some (.directory inside))
    (hafter : ∀ inside, (change entries).lookup name ≠ some (.directory inside))
    (hother : ∀ other, other ≠ name → (change entries).lookup other = entries.lookup other)
    (hlocation : location ≠ place ++ [name]) :
    (tree.updateEntries change place).see? location = tree.see? location := by
  refine see?_updateEntries hplace fun other rest hrest => ?_
  by_cases hname : other = name
  · subst hname
    obtain _ | ⟨first, rest⟩ := rest
    · exact absurd hrest hlocation
    · -- neither the old nor the new entry has anything below it
      have hnone : ∀ node : Option FileTree, (∀ inside, node ≠ some (.directory inside)) →
          node.bind (·.see? (first :: rest)) = none := by
        rintro (_ | node) hnode
        · rfl
        · exact see?_cons_of_not_directory (fun inside heq => hnode inside (congrArg some heq)) _ _
      rw [hnone _ hafter, hnone _ hbefore]
  · rw [hother other hname]

end

end FileTree

/-! ## Walks -/

section

variable {tree other : FileTree}

/-- Whether a tree lets walks pass is a matter of what is seen of it. -/
theorem passable_of_see?
    (hdirectory : ∀ location, tree.see? location = some .directory →
      other.see? location = some .directory)
    (hlink : ∀ location target, tree.see? location = some (.link target) →
      other.see? location = some (.link target)) : Passable tree other where
  directory location entries hentries := by
    refine FileTree.see?_eq_directory_iff.mp (hdirectory location ?_)
    exact FileTree.see?_eq_directory_iff.mpr ⟨entries, hentries⟩
  link location target htarget := by
    refine (FileTree.see?_eq_sight_iff (by nofun)).mp (hlink location target ?_)
    exact (FileTree.see?_eq_sight_iff (by nofun)).mpr htarget

/-- **A walk ends at the same place** in a tree with the same directories and links, if there is
a file at its end whenever it ended at a file. -/
theorem follow_of_passable (hpassable : Passable tree other) {followsLast : Bool} {links : Nat}
    {place goal : Location} {segments : List String}
    (hgoal : ∀ content, tree.at? goal = some (.file content) →
      ∃ content', other.at? goal = some (.file content'))
    (h : follow tree followsLast links place segments = .ok goal) :
    follow other followsLast links place segments = .ok goal := by
  -- one case for each way to go on; the walks that end in an error have no goal
  fun_induction follow tree followsLast links place segments with
  | case1 links place => rw [follow_nil, h]
  | case2 links place segment rest hblank ih => rw [follow_blank hblank, ih h]
  | case3 links place rest _ ih => rw [follow_parent, ih h]
  | case4 | case5 | case8 | case10 => cases h
  | case6 links place segment rest hblank hparent hlimit next inside hnode ih =>
    obtain ⟨inside', hinside⟩ := hpassable.directory _ _ hnode
    rw [follow_name (isName_of_not hblank hparent hlimit), hinside]
    exact ih h
  | case7 links place segment rest hblank hparent hlimit next content hnode hlast =>
    -- the walk has come to its end, where the other tree has a file as well
    have hnext : place ++ [segment] = goal := Except.ok.inj h
    obtain ⟨content', hcontent⟩ := hgoal content (hnext ▸ hnode)
    rw [follow_name (isName_of_not hblank hparent hlimit), hnext, hcontent]
    exact if_pos hlast
  | case9 links place segment rest hblank hparent hlimit next target hnode hlast =>
    rw [follow_name (isName_of_not hblank hparent hlimit), hpassable.link _ _ hnode]
    exact (if_pos hlast).trans h
  | case11 place segment rest hblank hparent hlimit next target hnode hlast links start ih =>
    rw [follow_name (isName_of_not hblank hparent hlimit), hpassable.link _ _ hnode]
    exact (if_neg hlast).trans (ih h)

/-- **A walk is the same, or blocked**, in a tree that has a file in the place of what is no
directory: if the walk passes a link in that place, then whatever segments come after it are
refused. -/
theorem Leads.of_blocked {blocked : Location} {content : ByteArray}
    (hfile : other.at? blocked = some (.file content))
    (hbefore : ∀ entries, tree.at? blocked ≠ some (.directory entries))
    (hsame : ∀ location, location ≠ blocked → other.see? location = tree.see? location)
    {links : Nat} {place goal : Location} {segments : List String}
    (h : Leads tree links place segments goal) :
    Leads other links place segments goal ∨ ∀ more, more ≠ [] →
      follow other true links place (segments ++ more) = .error .notDirectory := by
  induction h with
  | here links place => exact .inl (.here links place)
  | blank hblank _ ih =>
    refine ih.imp (.blank hblank) fun hrefused more hmore => ?_
    rw [List.cons_append, follow_blank hblank, hrefused more hmore]
  | parent _ ih =>
    refine ih.imp .parent fun hrefused more hmore => ?_
    rw [List.cons_append, follow_parent, hrefused more hmore]
  | @directory links place goal segment rest entries hname hnode _ ih =>
    -- the file is not in the place of this directory
    have hne : place ++ [segment] ≠ blocked := fun heq => hbefore entries (heq ▸ hnode)
    have hsee := (hsame _ hne).trans (FileTree.see?_eq_directory_iff.mpr ⟨entries, hnode⟩)
    obtain ⟨inside, hinside⟩ := FileTree.see?_eq_directory_iff.mp hsee
    refine ih.imp (.directory hname hinside) fun hrefused more hmore => ?_
    rw [List.cons_append, follow_name hname, hinside]
    exact hrefused more hmore
  | @link links place goal segment rest target hname hnode _ ih =>
    have hempty : ∀ {more : List String}, more ≠ [] → (rest ++ more).isEmpty = false :=
      fun hmore => List.isEmpty_eq_false_iff.mpr (List.append_ne_nil_of_right_ne_nil rest hmore)
    by_cases hblocked : place ++ [segment] = blocked
    · -- here the file stands, and there is more to come
      refine .inr fun more hmore => ?_
      rw [List.cons_append, follow_name hname, hblocked, hfile]
      simp only [hempty hmore, Bool.false_eq_true, if_false]
    · have hlink := (FileTree.at?_eq_iff_of_see?_eq (hsame _ hblocked) (by nofun)).mpr hnode
      refine ih.imp (.link hname hlink) fun hrefused more hmore => ?_
      rw [List.cons_append, follow_name hname, hlink]
      simp only [hempty hmore, Bool.false_and, Bool.false_eq_true, if_false]
      rw [← List.append_assoc]
      exact hrefused more hmore

/-- **A path leads to the same place** in a system with the same directories and links. -/
theorem System.resolve_of_passable {system after : System}
    (hpassable : Passable system.tree after.tree)
    (hworking : after.workingDirectory = system.workingDirectory) {path : Path} {followsLast : Bool}
    {goal : Location}
    (hgoal : ∀ content, system.tree.at? goal = some (.file content) →
      ∃ content', after.tree.at? goal = some (.file content'))
    (h : system.resolve path followsLast = .ok goal) :
    after.resolve path followsLast = .ok goal := by
  rw [resolve] at h ⊢
  split
  · next hpath =>
    rw [if_pos hpath] at h
    cases h
  · next hpath =>
    rw [if_neg hpath] at h
    rw [hworking]
    exact follow_of_passable hpassable hgoal h

end

end Mosaic.Files
