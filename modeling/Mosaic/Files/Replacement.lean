import Mosaic.Files.System

/-!
# Replacing files

A file is replaced as a whole: its new content goes piece by piece into a scratch
file of a fresh name beside it, which is then renamed. Nobody sees a part of the
content, and a writer that fails takes its scratch file with it.

* `Writer.advance`, `Writer.abandon`: one step of a writer in its directory.
* `Writer.run`: all steps of one writer.
* `System.replaceFile`: the file of a path replaced.
-/

namespace Mosaic.Files

/-- How far a writer has come. -/
inductive Phase
  | idle
  /-- The scratch file has been created; some pieces are still to be written. -/
  | writing (scratch : String) (pieces : List String)
  | done
  | failed (fault : Fault)

/-- A writer that replaces the file `target` of a directory. -/
structure Writer where
  target : String
  pieces : List String
  phase : Phase := .idle

/-- The first name that is not taken, made by lengthening one. -/
def freshNameFrom (taken : List String) : (attempts : Nat) → String → String
  | 0, name => name
  | attempts + 1, name =>
    if taken.contains name then freshNameFrom taken attempts (name ++ "~") else name

/-- A name that is not taken: of more candidates than names, one is free. -/
def freshName (taken : List String) : String :=
  freshNameFrom taken (taken.length + 1) ".scratch"

def removeEntry (name : String) (entries : Entries) : Entries :=
  entries.filter (·.1 ≠ name)

/-- The content of a file among the entries. -/
def contentOf (entries : Entries) (name : String) : ByteArray :=
  match entries.lookup name with
  | some (.file content) => content
  | _ => .empty

/-- Gives a file another name, in place of the file of that name if there is one. -/
def renameEntry (old new : String) (entries : Entries) : Entries :=
  putEntry new (.file (contentOf entries old)) (removeEntry old entries)

namespace Writer

/-- The writer gives up. -/
def abandon (writer : Writer) (fault : Fault) (entries : Entries) : Entries × Writer :=
  match writer.phase with
  | .idle => (entries, { writer with phase := .failed fault })
  | .writing scratch _ => (removeEntry scratch entries, { writer with phase := .failed fault })
  | _ => (entries, writer)

/-- The next step: the scratch file is created, a piece is written, or the scratch
file becomes the target, which must not be a directory. -/
def advance (writer : Writer) (entries : Entries) : Entries × Writer :=
  match writer.phase with
  | .idle =>
    let scratch := freshName (writer.target :: entries.map Prod.fst)
    (putEntry scratch (.file .empty) entries,
      { writer with phase := .writing scratch writer.pieces })
  | .writing scratch (piece :: rest) =>
    let content := contentOf entries scratch ++ piece.toUTF8
    (putEntry scratch (.file content) entries, { writer with phase := .writing scratch rest })
  | .writing scratch [] =>
    if ((entries.lookup writer.target).map FileTree.isDirectory).getD false then
      writer.abandon .isDirectory entries
    else (renameEntry scratch writer.target entries, { writer with phase := .done })
  | _ => (entries, writer)

/-- So many steps of one writer. -/
def advanceBy : Nat → Writer → Entries → Entries × Writer
  | 0, writer, entries => (entries, writer)
  | steps + 1, writer, entries =>
    let (entries, writer) := writer.advance entries
    advanceBy steps writer entries

/-- All steps of one writer that nothing else disturbs. -/
def run (writer : Writer) (entries : Entries) : Entries × Writer :=
  writer.advanceBy (writer.pieces.length + 2) entries

end Writer

namespace System

/-- The directory beside whose entries the file of a path stands. -/
def directoryOf (path : Path) : Path :=
  match path.parent? with
  | none | some "" => "."
  | some parent => parent

/-- The name under which a file is put at a path. A path that ends in dots or in a slash
names no file. -/
def targetName (system : System) (path : Path) : Except Fault String :=
  let reversed := path.segments.reverse
  match reversed.dropWhile (· = "") with
  | [] => .error .missing
  | last :: above =>
    if last = "." ∨ last = ".." then do
      -- The directory in use is looked up first, since that may fail otherwise.
      let _ ← system.listDirectory (if above.isEmpty then "." else .ofSegments above.reverse)
      .error .busy
    else if nameLimit < last.utf8ByteSize then .error .nameTooLong
    else if reversed.head? = some "" then .error .notDirectory
    else .ok last

/-- The system after the file of a path has been replaced. -/
def replaceFile (system : System) (path : Path) (pieces : List String) : Except Fault System := do
  let directory := directoryOf path
  let entries ← system.listDirectory directory
  let target ← system.targetName path
  let (entries, writer) := ({ target, pieces : Writer }).run entries
  match writer.phase with
  | .failed fault => .error fault
  | _ => do
    let location ← system.resolve directory true
    .ok { system with tree := system.tree.updateEntries (fun _ => entries) location }

end System

end Mosaic.Files
