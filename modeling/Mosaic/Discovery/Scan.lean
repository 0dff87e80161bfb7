import Mosaic.Discovery.Settings
import Mosaic.Files.System
import Mosaic.Log

/-!
# Looking for sources

The sources below a directory, down to some depth. Entries come in the order of their
names, and those of a directory all together, whatever order the directory lists them
in. Hidden entries, the directories of other packages and links are left out; only
the place where the search begins may be any of them.

* `ScanRules.skips`, `ScanRules.isSource`.
* `scan`: the sources of a place.
-/

namespace Mosaic.Discovery

open Files

/-- Whether a text occurs in another one. -/
def occursIn (needle : List Char) : List Char → Bool
  | [] => needle.isEmpty
  | c :: rest => needle.isPrefixOf (c :: rest) || occursIn needle rest

namespace ScanRules

variable (rules : ScanRules)

/-- Whether an entry of that name is left out. -/
def skips (name : String) : Bool :=
  name.toList.head? == some '.' || occursIn rules.dependencyDirectory.toList name.toList

def isSource (path : Path) : Bool := path.extension? == some rules.extension

end ScanRules

structure SourceFile where
  path : Path
  content : ByteArray

/-- The groups of the names in increasing order, one after the other. -/
def inNameOrder {α : Type} (groups : List (String × List α)) : List α :=
  (groups.mergeSort fun a b => a.1 ≤ b.1).flatMap Prod.snd

mutual

/-- The sources among the entries of a directory at `place`, grouped by the entries. -/
def sourceGroups (rules : ScanRules) (place : Path) (depth : Nat) :
    List (String × FileTree) → List (String × List SourceFile)
  | [] => []
  | (name, node) :: rest =>
    if rules.skips name then sourceGroups rules place depth rest
    else
      (name, sourcesOf rules (place.join name) depth node) :: sourceGroups rules place depth rest

/-- The sources at or below a node; `depth` is the number of levels of directories that
may be entered. -/
def sourcesOf (rules : ScanRules) (path : Path) (depth : Nat) : FileTree → List SourceFile
  | .file content => if rules.isSource path then [⟨path, content⟩] else []
  | .link _ => []
  | .directory entries =>
    match depth with
    | 0 => []
    | depth + 1 => inNameOrder (sourceGroups rules path depth entries)

end

def unreadable (root : Path) (fault : Fault) : Logged (List SourceFile) := do
  .warn "skipping unreadable entry"
    [("path", root), ("error", s!"IO error for operation on {root}: {fault.message}")]
  pure []

/-- The sources at or below a path, which may lead to a directory by a link. -/
def scan (system : System) (root : Path) (depth : Nat) (rules : ScanRules) :
    Logged (List SourceFile) :=
  match system.lookup root false with
  | .error fault => unreadable root fault
  | .ok (.link _) =>
    match system.lookup root true with
    | .error fault => unreadable root fault
    | .ok (.directory entries) => pure (sourcesOf rules root (depth + 1) (.directory entries))
    | .ok _ => pure []
  | .ok node => pure (sourcesOf rules root (depth + 1) node)

end Mosaic.Discovery
