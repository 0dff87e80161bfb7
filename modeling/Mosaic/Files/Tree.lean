import Mosaic.Dict
import Mosaic.Files.Path

/-!
# File trees

A node of a file tree is a file, a symbolic link or a directory. A directory lists
its entries in some order; the first of equal names counts. A location names a node
by the directories that lead to it from the top, without links.

* `FileTree.at?`: the node at a location.
* `FileTree.updateEntries`: a tree with the entries of one directory changed.
* `FileTree.plant`: a tree with a node added.
* `FileTree.WellFormed`: no directory lists a name twice.
-/

namespace Mosaic.Files

inductive FileTree
  | file (content : ByteArray)
  | link (target : Path)
  | directory (entries : List (String × FileTree))

/-- The entries of a directory, in the order in which it lists them. -/
abbrev Entries := List (String × FileTree)

/-- The names that lead to a node from the top of the tree. -/
abbrev Location := List String

namespace FileTree

instance : Inhabited FileTree := ⟨.directory []⟩

def entries : FileTree → Entries
  | .directory entries => entries
  | _ => []

def isDirectory : FileTree → Bool
  | .directory _ => true
  | _ => false

def child? (node : FileTree) (name : String) : Option FileTree := node.entries.lookup name

/-- The node at a location. -/
def at? (node : FileTree) : Location → Option FileTree
  | [] => some node
  | name :: rest => (node.child? name).bind (·.at? rest)

/-- The tree with the entries of the directory at a location changed. -/
def updateEntries (change : Entries → Entries) (node : FileTree) : Location → FileTree
  | [] =>
    match node with
    | .directory entries => .directory (change entries)
    | other => other
  | name :: rest =>
    match node with
    | .directory entries =>
      match entries.lookup name with
      | some child => .directory (putEntry name (updateEntries change child rest) entries)
      | none => .directory entries
    | other => other

/-- The tree with a node put at a location. Directories on the way to it are made, and a
directory that is put where there is one already leaves that as it is. -/
def plant (node planted : FileTree) : Location → FileTree
  | [] => if planted.isDirectory && node.isDirectory then node else planted
  | name :: rest =>
    let child := (node.child? name).getD (.directory [])
    .directory (putEntry name (plant child planted rest) node.entries)

mutual

/-- Whether no directory lists a name twice. -/
def WellFormed : FileTree → Prop
  | .file _ => True
  | .link _ => True
  | .directory entries => (entries.map Prod.fst).Nodup ∧ WellFormedEntries entries

def WellFormedEntries : List (String × FileTree) → Prop
  | [] => True
  | (_, node) :: rest => node.WellFormed ∧ WellFormedEntries rest

end

end FileTree

end Mosaic.Files
