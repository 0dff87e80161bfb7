import Mathlib.Data.List.Forall2
import Mosaic.Proofs.Files.Sight

/-!
# Directories that list their entries in another order

An operating system lists the entries of a directory in whatever order it likes. Trees that differ
in that order only, in some directories or in all of them, hold the same under each path, and what
is asked of one of them is answered as for the other, up to the order in which a directory is
listed.

* `FileTree.Reordered`: two trees of this kind.
* `FileTree.Reordered.of_entries`, `FileTree.Reordered.of_perm`: one directory in another order.
* `FileTree.Reordered.rel_at?`: what stands at a location.
* `follow_of_see?_eq`: where walks end, which depends on what is seen in each place.
* `System.lookup_reordered` and what is asked of a system: `System.isDirectory_reordered`,
  `System.readText_reordered`, `System.baseName?_reordered`, `System.listDirectory_reordered`.
-/

namespace Mosaic.Files

namespace FileTree

/-- The second tree is the first one with the entries of each directory in some order, which may
be another one for each directory. -/
inductive Reordered : FileTree → FileTree → Prop
  | file (content : ByteArray) : Reordered (.file content) (.file content)
  | link (target : Path) : Reordered (.link target) (.link target)
  | directory {entries entries' : Entries} :
    (entries.map Prod.fst).Perm (entries'.map Prod.fst) →
    (∀ name node node', entries.lookup name = some node → entries'.lookup name = some node' →
      Reordered node node') →
    Reordered (.directory entries) (.directory entries')

namespace Reordered

theorem refl (tree : FileTree) : tree.Reordered tree := by
  -- the entries of a directory are smaller than the directory
  induction hsize : sizeOf tree using Nat.strongRecOn generalizing tree with
  | ind size ih =>
    subst hsize
    cases tree with
    | file content => exact .file content
    | link target => exact .link target
    | directory entries =>
      refine .directory (List.Perm.refl _) fun name node node' hnode hnode' => ?_
      obtain rfl : node = node' := Option.some.inj (hnode.symm.trans hnode')
      refine ih _ ?_ node rfl
      have hmem := List.sizeOf_lt_of_mem (mem_of_lookup hnode)
      simp only [Prod.mk.sizeOf_spec] at hmem
      simp only [FileTree.directory.sizeOf_spec]
      omega

/-- Entries that are reordered one by one are found under their names. -/
theorem exists_lookup_of_forall₂ {entries entries' : Entries}
    (h : List.Forall₂ (fun entry entry' => entry.1 = entry'.1 ∧ entry.2.Reordered entry'.2)
      entries entries') {name : String} {node : FileTree} (hnode : entries.lookup name = some node) :
    ∃ node', entries'.lookup name = some node' ∧ node.Reordered node' := by
  induction h with
  | nil => cases hnode
  | @cons entry entry' rest rest' hentry _ ih =>
    obtain ⟨hkey, hreordered⟩ := hentry
    rw [List.lookup_cons] at hnode ⊢
    rw [← hkey]
    by_cases hname : (name == entry.1) = true
    · rw [hname] at hnode ⊢
      exact ⟨entry'.2, rfl, Option.some.inj hnode ▸ hreordered⟩
    · rw [Bool.not_eq_true] at hname
      rw [hname] at hnode ⊢
      exact ih hnode

/-- **One directory**: its entries are reordered one by one, and then put in some order. -/
theorem of_entries {entries inside entries' : Entries}
    (hinside : List.Forall₂ (fun entry entry' => entry.1 = entry'.1 ∧ entry.2.Reordered entry'.2)
      entries inside)
    (hperm : inside.Perm entries') (hdistinct : (entries.map Prod.fst).Nodup) :
    (FileTree.directory entries).Reordered (FileTree.directory entries') := by
  have hsame : entries.map Prod.fst = inside.map Prod.fst := by
    have hkeys := hinside.imp fun _ _ h => h.1
    exact List.forall₂_eq_eq_eq ▸ List.forall₂_map_left_iff.mpr (List.forall₂_map_right_iff.mpr hkeys)
  have hnames : (entries.map Prod.fst).Perm (entries'.map Prod.fst) := hsame ▸ hperm.map Prod.fst
  refine .directory hnames fun name node node' hnode hnode' => ?_
  -- names are distinct, so that the order does not matter to what is found
  obtain ⟨found, hfound, hreordered⟩ := exists_lookup_of_forall₂ hinside hnode
  rw [lookup_eq_of_perm (hsame ▸ hdistinct) hperm, hfound, Option.some_inj] at hnode'
  exact hnode' ▸ hreordered

/-- The entries of one directory in another order. -/
theorem of_perm {entries entries' : Entries} (hperm : entries.Perm entries')
    (hdistinct : (entries.map Prod.fst).Nodup) :
    (FileTree.directory entries).Reordered (FileTree.directory entries') :=
  of_entries (List.forall₂_same.mpr fun entry _ => ⟨rfl, refl entry.2⟩) hperm hdistinct

/-! ## What stands at a location -/

variable {tree other : FileTree}

theorem rel_child? (h : tree.Reordered other) (name : String) :
    Option.Rel Reordered (tree.child? name) (other.child? name) := by
  cases h with
  | file content => exact .none
  | link target => exact .none
  | @directory entries entries' hnames hnodes =>
    rw [child?_directory, child?_directory]
    -- both directories have the name, or neither has it
    by_cases hname : name ∈ entries.map Prod.fst
    · obtain ⟨node, hnode⟩ := Option.isSome_iff_exists.mp (lookup_isSome_iff_mem_keys.mpr hname)
      obtain ⟨node', hnode'⟩ := Option.isSome_iff_exists.mp
        (lookup_isSome_iff_mem_keys.mpr (hnames.mem_iff.mp hname))
      rw [hnode, hnode']
      exact .some (hnodes name node node' hnode hnode')
    · have hname' : name ∉ entries'.map Prod.fst := mt hnames.mem_iff.mpr hname
      rw [lookup_eq_none_iff_not_mem_keys.mpr hname, lookup_eq_none_iff_not_mem_keys.mpr hname']
      exact .none

/-- **At each location** stands the same, with its directories in some order. -/
theorem rel_at? (h : tree.Reordered other) (location : Location) :
    Option.Rel Reordered (tree.at? location) (other.at? location) := by
  induction location generalizing tree other with
  | nil =>
    rw [at?_nil, at?_nil]
    exact .some h
  | cons name rest ih =>
    have hchild := h.rel_child? name
    rw [at?_cons, at?_cons]
    generalize tree.child? name = child, other.child? name = child' at hchild ⊢
    cases hchild with
    | none => exact .none
    | some hchild => exact ih hchild

/-- The two trees look alike. -/
theorem see?_eq (h : tree.Reordered other) (location : Location) :
    other.see? location = tree.see? location := by
  have hnode := h.rel_at? location
  rw [see?, see?]
  generalize tree.at? location = node, other.at? location = node' at hnode ⊢
  cases hnode with
  | none => rfl
  | some hnode => cases hnode <;> rfl

end Reordered

end FileTree

/-! ## Walks -/

section

variable {tree other : FileTree}

/-- **A walk ends at the same place** in trees that look alike, or fails in the same way. -/
theorem follow_of_see?_eq (h : ∀ location, other.see? location = tree.see? location)
    (followsLast : Bool) (links : Nat) (place : Location) (segments : List String) :
    follow other followsLast links place segments =
      follow tree followsLast links place segments := by
  -- links and files are seen whole, a directory only as one
  have hlink : ∀ {location target}, tree.at? location = some (.link target) →
      other.at? location = some (.link target) :=
    fun {location _} => (FileTree.at?_eq_iff_of_see?_eq (h location) (by nofun)).mpr
  have hfile : ∀ {location content}, tree.at? location = some (.file content) →
      other.at? location = some (.file content) :=
    fun {location _} => (FileTree.at?_eq_iff_of_see?_eq (h location) (by nofun)).mpr
  -- one case for each way to go on
  fun_induction follow tree followsLast links place segments with
  | case1 links place => rw [follow_nil]
  | case2 links place segment rest hblank ih => rw [follow_blank hblank, ih]
  | case3 links place rest _ ih => rw [follow_parent, ih]
  | case4 links place segment rest hblank hparent hlimit =>
    rw [follow, if_neg hblank, if_neg hparent, if_pos hlimit]
  | case5 links place segment rest hblank hparent hlimit next hnode =>
    have hnone : other.at? next = none := by
      rw [← FileTree.see?_eq_none_iff, h]
      exact FileTree.see?_eq_none_iff.mpr hnode
    rw [follow_name (isName_of_not hblank hparent hlimit), hnone]
  | case6 links place segment rest hblank hparent hlimit next inside hnode ih =>
    have hdirectory : ∃ inside', other.at? next = some (.directory inside') := by
      rw [← FileTree.see?_eq_directory_iff, h]
      exact FileTree.see?_eq_directory_iff.mpr ⟨inside, hnode⟩
    obtain ⟨inside', hinside⟩ := hdirectory
    rw [follow_name (isName_of_not hblank hparent hlimit), hinside]
    exact ih
  | case7 links place segment rest hblank hparent hlimit next content hnode hlast =>
    rw [follow_name (isName_of_not hblank hparent hlimit), hfile hnode]
    exact if_pos hlast
  | case8 links place segment rest hblank hparent hlimit next content hnode hlast =>
    rw [follow_name (isName_of_not hblank hparent hlimit), hfile hnode]
    exact if_neg hlast
  | case9 links place segment rest hblank hparent hlimit next target hnode hlast =>
    rw [follow_name (isName_of_not hblank hparent hlimit), hlink hnode]
    exact if_pos hlast
  | case10 place segment rest hblank hparent hlimit next target hnode hlast =>
    rw [follow_name (isName_of_not hblank hparent hlimit), hlink hnode]
    exact if_neg hlast
  | case11 place segment rest hblank hparent hlimit next target hnode hlast links start ih =>
    rw [follow_name (isName_of_not hblank hparent hlimit), hlink hnode]
    exact (if_neg hlast).trans ih

end

/-! ## What is asked of a system -/

namespace System

/-- The system with another tree. -/
def withTree (system : System) (tree : FileTree) : System := { system with tree }

variable {system : System} {other : FileTree} (h : system.tree.Reordered other)
include h

theorem resolve_reordered (path : Path) (followsLast : Bool) :
    (system.withTree other).resolve path followsLast = system.resolve path followsLast := by
  rw [resolve, resolve]
  split
  · rfl
  · exact follow_of_see?_eq h.see?_eq followsLast linkLimit _ path.segments

/-- **A path leads to the same node**, with its directories in some order, or to none. -/
theorem lookup_reordered (path : Path) (followsLast : Bool) :
    (∃ fault, system.lookup path followsLast = .error fault ∧
      (system.withTree other).lookup path followsLast = .error fault) ∨
    ∃ location node node', system.tree.at? location = some node ∧ node.Reordered node' ∧
      system.lookup path followsLast = .ok node ∧
      (system.withTree other).lookup path followsLast = .ok node' := by
  have hresolve' := resolve_reordered h path followsLast
  cases hresolve : system.resolve path followsLast with
  | error fault =>
    rw [hresolve] at hresolve'
    refine .inl ⟨fault, ?_, ?_⟩
    · rw [lookup, hresolve]
      rfl
    · rw [lookup, hresolve']
      rfl
  | ok location =>
    rw [hresolve] at hresolve'
    -- the paths lead to one location, so it is enough to compare what stands there
    rw [lookup_of_resolve hresolve, lookup_of_resolve hresolve']
    have hnode : Option.Rel FileTree.Reordered (system.tree.at? location)
        ((system.withTree other).tree.at? location) := h.rel_at? location
    generalize hat : system.tree.at? location = node,
      (system.withTree other).tree.at? location = node' at hnode
    cases hnode with
    | none => exact .inl ⟨.missing, rfl, rfl⟩
    | some hnode => exact .inr ⟨location, _, _, hat, hnode, rfl, rfl⟩

theorem isDirectory_reordered (path : Path) :
    (system.withTree other).isDirectory path = system.isDirectory path := by
  rw [isDirectory, isDirectory]
  rcases lookup_reordered h path true with
    ⟨fault, hlookup, hlookup'⟩ | ⟨location, node, node', -, hnode, hlookup, hlookup'⟩
  · rw [hlookup, hlookup']
  · rw [hlookup, hlookup']
    cases hnode <;> rfl

/-- A text is the same, and so is what keeps it from being read. -/
theorem readText_reordered (path : Path) :
    (system.withTree other).readText path = system.readText path := by
  rw [readText, readText]
  rcases lookup_reordered h path true with
    ⟨fault, hlookup, hlookup'⟩ | ⟨location, node, node', -, hnode, hlookup, hlookup'⟩
  · rw [hlookup, hlookup']
  · rw [hlookup, hlookup']
    cases hnode <;> rfl

theorem baseName?_reordered (path : Path) :
    (system.withTree other).baseName? path = system.baseName? path := by
  rw [baseName?, baseName?, resolve_reordered h]

/-- **A directory lists the same names**, in some order. -/
theorem listDirectory_reordered (path : Path) :
    (∃ fault, system.listDirectory path = .error fault ∧
      (system.withTree other).listDirectory path = .error fault) ∨
    ∃ entries entries', system.listDirectory path = .ok entries ∧
      (system.withTree other).listDirectory path = .ok entries' ∧
      (entries.map Prod.fst).Perm (entries'.map Prod.fst) := by
  rw [listDirectory, listDirectory]
  rcases lookup_reordered h path true with
    ⟨fault, hlookup, hlookup'⟩ | ⟨location, node, node', -, hnode, hlookup, hlookup'⟩
  · rw [hlookup, hlookup']
    exact .inl ⟨fault, rfl, rfl⟩
  · rw [hlookup, hlookup']
    cases hnode with
    | file content | link target => exact .inl ⟨.notDirectory, rfl, rfl⟩
    | directory hnames _ => exact .inr ⟨_, _, rfl, rfl, hnames⟩

end System

end Mosaic.Files
