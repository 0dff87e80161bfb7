import Mosaic.Files.Tree

/-!
# Finding and reading files

A file system is a file tree with a working directory. A path is followed segment by
segment; links on the way are followed too, up to a limit.

* `System.resolve`: the location that a path leads to.
* `System.readText`, `System.isDirectory`, `System.listDirectory`.
-/

namespace Mosaic.Files

/-- Ways in which access to a file fails. -/
inductive Fault
  | missing
  | notDirectory
  | isDirectory
  | busy
  | tooManyLinks
  | nameTooLong
  /-- The content is not text in UTF-8. -/
  | notText
  deriving DecidableEq, Repr

def Fault.message : Fault → String
  | .missing => "No such file or directory (os error 2)"
  | .notDirectory => "Not a directory (os error 20)"
  | .isDirectory => "Is a directory (os error 21)"
  | .busy => "Device or resource busy (os error 16)"
  | .tooManyLinks => "Too many levels of symbolic links (os error 40)"
  | .nameTooLong => "File name too long (os error 36)"
  | .notText => "stream did not contain valid UTF-8"

/-- The number of bytes that the name of an entry may have. -/
def nameLimit : Nat := 255

/-- The number of links that may be followed on the way to one node. -/
def linkLimit : Nat := 40

/-- Follows segments from a directory. The last one, if it is a link, is followed only
on request; a slash after it is such a request. -/
def follow (tree : FileTree) (followsLast : Bool) (links : Nat) (place : Location)
    (segments : List String) : Except Fault Location :=
  match segments with
  | [] => .ok place
  | segment :: rest =>
    if segment = "" ∨ segment = "." then follow tree followsLast links place rest
    else if segment = ".." then follow tree followsLast links place.dropLast rest
    else if nameLimit < segment.utf8ByteSize then .error .nameTooLong
    else
      let next := place ++ [segment]
      match tree.at? next with
      | none => .error .missing
      | some (.directory _) => follow tree followsLast links next rest
      | some (.file _) => if rest.isEmpty then .ok next else .error .notDirectory
      | some (.link target) =>
        if rest.isEmpty && !followsLast then .ok next
        else
          match links with
          | 0 => .error .tooManyLinks
          | links + 1 =>
            let start := if target.isAbsolute then [] else place
            follow tree followsLast links start (target.segments ++ rest)
termination_by (links, segments.length)

structure System where
  tree : FileTree
  workingDirectory : Location := []

namespace System

variable (system : System)

/-- The location that a path leads to. -/
def resolve (path : Path) (followsLast : Bool) : Except Fault Location :=
  if path = "" then .error .missing
  else
    let start := if path.isAbsolute then [] else system.workingDirectory
    follow system.tree followsLast linkLimit start path.segments

/-- The node that a path leads to. -/
def lookup (path : Path) (followsLast : Bool) : Except Fault FileTree := do
  match system.tree.at? (← system.resolve path followsLast) with
  | some node => .ok node
  | none => .error .missing

def isPresent (path : Path) : Bool := (system.lookup path true).isOk

def isDirectory (path : Path) : Bool :=
  match system.lookup path true with
  | .ok node => node.isDirectory
  | .error _ => false

/-- The entries of a directory. -/
def listDirectory (path : Path) : Except Fault Entries := do
  match ← system.lookup path true with
  | .directory entries => .ok entries
  | _ => .error .notDirectory

def decode (content : ByteArray) : Except Fault String :=
  match String.fromUTF8? content with
  | some text => .ok text
  | none => .error .notText

/-- The text of a file. -/
def readText (path : Path) : Except Fault String := do
  match ← system.lookup path true with
  | .file content => decode content
  | .directory _ => .error .isDirectory
  | .link _ => .error .missing

/-- The last name of a path, after all links have been followed if that is possible. -/
def baseName? (path : Path) : Option String :=
  match system.resolve path true with
  | .ok location => location.getLast?
  | .error _ => path.fileName?

end System

end Mosaic.Files
