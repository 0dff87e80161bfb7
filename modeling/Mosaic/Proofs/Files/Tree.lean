import Mathlib.Data.List.Infix
import Mosaic.Files.Tree
import Mosaic.Proofs.Dict

/-!
# Changing one directory of a tree

What stands at a location after the entries of a directory have been changed: inside that
directory it is found among the new entries, on the way to it stands the old node with the
change inside, and everywhere else nothing is different.

* `at?_append`: a location in two steps.
* `at?_updateEntries_append`, `at?_updateEntries_of_prefix`,
  `at?_updateEntries_of_not_prefix`: inside the directory, above it, and aside.
* `updateEntries_self`, `updateEntries_updateEntries`: a change that changes nothing, and one
  change after another.
-/

namespace Mosaic.Files

namespace FileTree

theorem at?_nil (node : FileTree) : node.at? [] = some node := by
  unfold at?
  rfl

theorem at?_cons (node : FileTree) (name : String) (rest : Location) :
    node.at? (name :: rest) = (node.child? name).bind (·.at? rest) := by
  rw [at?]

theorem at?_append (node : FileTree) (above below : Location) :
    node.at? (above ++ below) = (node.at? above).bind (·.at? below) := by
  induction above generalizing node with
  | nil => rw [List.nil_append, at?_nil, Option.bind_some]
  | cons name rest ih =>
    rw [List.cons_append, at?_cons, at?_cons]
    cases node.child? name with
    | none => rfl
    | some child => exact ih child

theorem child?_directory (entries : Entries) (name : String) :
    (directory entries).child? name = entries.lookup name := rfl

theorem child?_file (content : ByteArray) (name : String) : (file content).child? name = none := rfl

/-- What stands under a name in a directory. -/
theorem at?_entry {node : FileTree} {place : Location} {entries : Entries}
    (h : node.at? place = some (directory entries)) (name : String) :
    node.at? (place ++ [name]) = entries.lookup name := by
  rw [at?_append, h, Option.bind_some, at?_cons, child?_directory]
  cases entries.lookup name with
  | none => rfl
  | some child => exact at?_nil child

/-- What stands under a name stands in a directory. -/
theorem entries_of_at? {node child : FileTree} {place : Location} {name : String}
    (h : node.at? (place ++ [name]) = some child) :
    ∃ entries, node.at? place = some (directory entries) ∧ entries.lookup name = some child := by
  rw [at?_append] at h
  obtain ⟨parent, hparent, hchild⟩ := Option.bind_eq_some_iff.mp h
  rw [at?_cons] at hchild
  obtain ⟨found, hfound, hnode⟩ := Option.bind_eq_some_iff.mp hchild
  rw [at?_nil] at hnode
  cases parent with
  | file content | link target => cases hfound
  | directory entries => exact ⟨entries, hparent, hfound.trans hnode⟩

theorem WellFormedEntries.of_lookup {entries : Entries} {name : String} {node : FileTree}
    (h : WellFormedEntries entries) (hnode : entries.lookup name = some node) : node.WellFormed := by
  induction entries with
  | nil => cases hnode
  | cons entry rest ih =>
    obtain ⟨key, child⟩ := entry
    rw [WellFormedEntries] at h
    rw [List.lookup_cons] at hnode
    split at hnode
    · rw [← Option.some.inj hnode]
      exact h.1
    · exact ih h.2 hnode

/-- Whatever stands in a tree without repeated names has none either. -/
theorem WellFormed.of_at? {node child : FileTree} {location : Location} (h : node.WellFormed)
    (hchild : node.at? location = some child) : child.WellFormed := by
  induction location generalizing node with
  | nil =>
    rw [at?_nil, Option.some_inj] at hchild
    exact hchild ▸ h
  | cons name rest ih =>
    rw [at?_cons] at hchild
    obtain ⟨inside, hinside, hrest⟩ := Option.bind_eq_some_iff.mp hchild
    cases node with
    | file content | link target => cases hinside
    | directory entries =>
      rw [WellFormed] at h
      exact ih (h.2.of_lookup hinside) hrest

/-! ## One step -/

variable (change : Entries → Entries)

theorem updateEntries_nil (entries : Entries) :
    (directory entries).updateEntries change [] = directory (change entries) := by
  unfold updateEntries
  rfl

theorem updateEntries_link (target : Path) (place : Location) :
    (link target).updateEntries change place = link target := by
  cases place <;> rfl

/-- A changed directory is a directory. -/
theorem updateEntries_directory (entries : Entries) (place : Location) :
    ∃ entries', (directory entries).updateEntries change place = directory entries' := by
  cases place with
  | nil => exact ⟨change entries, updateEntries_nil change entries⟩
  | cons name rest =>
    rw [updateEntries]
    cases entries.lookup name with
    | none => exact ⟨entries, rfl⟩
    | some child => exact ⟨putEntry name (child.updateEntries change rest) entries, rfl⟩

/-- A directory on the way keeps the names of its entries. -/
theorem keys_updateEntries_cons (entries : Entries) (name : String) (rest : Location) :
    ∃ entries', (directory entries).updateEntries change (name :: rest) = directory entries' ∧
      entries'.map Prod.fst = entries.map Prod.fst := by
  rw [updateEntries]
  cases hchild : entries.lookup name with
  | none => exact ⟨entries, rfl, rfl⟩
  | some child =>
    refine ⟨_, rfl, ?_⟩
    rw [keys_putEntry, if_pos]
    exact lookup_isSome_iff_mem_keys.mp (hchild ▸ rfl)

/-- The entry on the way to the changed directory has the change inside it. -/
theorem child?_updateEntries_self (node : FileTree) (name : String) (rest : Location) :
    (node.updateEntries change (name :: rest)).child? name =
      (node.child? name).map (·.updateEntries change rest) := by
  cases node with
  | file content => rfl
  | link target => rfl
  | directory entries =>
    rw [updateEntries, child?_directory]
    cases hchild : entries.lookup name with
    | none => exact hchild
    | some child => exact lookup_putEntry_self _ entries

/-- The other entries of a directory on the way stay as they are. -/
theorem child?_updateEntries_of_ne {name other : String} (h : other ≠ name) (node : FileTree)
    (rest : Location) :
    (node.updateEntries change (name :: rest)).child? other = node.child? other := by
  cases node with
  | file content => rfl
  | link target => rfl
  | directory entries =>
    rw [updateEntries, child?_directory]
    cases entries.lookup name with
    | none => rfl
    | some child => exact lookup_putEntry_of_ne h _ entries

/-! ## Any number of steps -/

/-- Inside the directory the new entries are found. -/
theorem at?_updateEntries_append {node : FileTree} {place : Location} {entries : Entries}
    (h : node.at? place = some (directory entries)) (below : Location) :
    (node.updateEntries change place).at? (place ++ below) =
      (directory (change entries)).at? below := by
  induction place generalizing node with
  | nil =>
    rw [at?_nil, Option.some_inj] at h
    rw [h, updateEntries_nil, List.nil_append]
  | cons name rest ih =>
    rw [at?_cons] at h
    obtain ⟨child, hchild, hrest⟩ := Option.bind_eq_some_iff.mp h
    rw [List.cons_append, at?_cons, child?_updateEntries_self, hchild]
    exact ih hrest

/-- Above the directory the old node stands, with the change inside. -/
theorem at?_updateEntries_of_prefix {place other : Location} (h : other <+: place)
    (node : FileTree) :
    (node.updateEntries change place).at? other =
      (node.at? other).map (·.updateEntries change (place.drop other.length)) := by
  induction other generalizing node place with
  | nil => rw [at?_nil, at?_nil]; rfl
  | cons name rest ih =>
    obtain _ | ⟨first, place⟩ := place
    · exact absurd h.length_le (Nat.not_succ_le_zero _)
    obtain ⟨rfl, hrest⟩ := List.cons_prefix_cons.mp h
    rw [at?_cons, at?_cons, child?_updateEntries_self]
    cases node.child? name with
    | none => rfl
    | some child => exact ih hrest child

/-- Neither above nor inside the directory anything is different. -/
theorem at?_updateEntries_of_not_prefix {place other : Location} (hbelow : ¬ place <+: other)
    (habove : ¬ other <+: place) (node : FileTree) :
    (node.updateEntries change place).at? other = node.at? other := by
  induction other generalizing node place with
  | nil => exact absurd List.nil_prefix habove
  | cons name rest ih =>
    obtain _ | ⟨first, place⟩ := place
    · exact absurd List.nil_prefix hbelow
    rw [at?_cons, at?_cons]
    by_cases hname : name = first
    · subst hname
      rw [List.cons_prefix_cons] at hbelow habove
      rw [child?_updateEntries_self]
      cases node.child? name with
      | none => rfl
      | some child =>
        exact ih (fun h => hbelow ⟨rfl, h⟩) (fun h => habove ⟨rfl, h⟩) child
    · rw [child?_updateEntries_of_ne change hname]

/-- The changed directory itself. -/
theorem at?_updateEntries_self {node : FileTree} {place : Location} {entries : Entries}
    (h : node.at? place = some (directory entries)) :
    (node.updateEntries change place).at? place = some (directory (change entries)) := by
  have hat := at?_updateEntries_append change h []
  rwa [List.append_nil, at?_nil] at hat

/-- A directory whose entries stay as they are stays as it is, and the tree with it. -/
theorem updateEntries_self {change : Entries → Entries} {node : FileTree} {place : Location}
    {entries : Entries} (h : node.at? place = some (directory entries))
    (hsame : change entries = entries) : node.updateEntries change place = node := by
  induction place generalizing node with
  | nil =>
    rw [at?_nil, Option.some_inj] at h
    rw [h, updateEntries_nil, hsame]
  | cons name rest ih =>
    rw [at?_cons] at h
    obtain ⟨child, hchild, hrest⟩ := Option.bind_eq_some_iff.mp h
    cases node with
    | file content | link target => rfl
    | directory others =>
      rw [child?_directory] at hchild
      rw [updateEntries, hchild]
      show directory (putEntry name (child.updateEntries change rest) others) = _
      rw [ih hrest, putEntry_of_lookup hchild]

/-- Two changes of a directory, one after the other. -/
theorem updateEntries_updateEntries (change' : Entries → Entries) (node : FileTree)
    (place : Location) :
    (node.updateEntries change place).updateEntries change' place =
      node.updateEntries (change' ∘ change) place := by
  induction place generalizing node with
  | nil => cases node <;> rfl
  | cons name rest ih =>
    cases node with
    | file content | link target => rfl
    | directory entries =>
      rw [updateEntries, updateEntries]
      cases hchild : entries.lookup name with
      | none =>
        dsimp only
        rw [updateEntries, hchild]
      | some child =>
        dsimp only
        rw [updateEntries, lookup_putEntry_self]
        dsimp only
        rw [ih child, putEntry_putEntry]

end FileTree

end Mosaic.Files
