import Mosaic.CommandLine.Footprint
import Mosaic.CommandLine.Report
import Mosaic.Time.Clock

/-!
# The program

Reads the part of the file tree that a command looks at, lets the command respond to
it, and puts the registry in place that it leaves behind.
-/

namespace Mosaic.Program

open Files Discovery CommandLine

def entryAt (location : Location) : IO.FS.DirEntry :=
  { root := "/" ++ "/".intercalate location.dropLast
    fileName := location.getLast?.getD "" }

def locationOf (path : Path) : Location := path.segments.filter (· ≠ "")

/-- The location that a link leads to. -/
def linkTarget? (location : Location) : IO (Option Location) := do
  try
    let real ← IO.FS.realPath (entryAt location).path
    return some (locationOf real.toString)
  catch _ => return none

def linkNode : Option Location → FileTree
  | some target => .link ("/" ++ "/".intercalate target)
  | none => .link "/\x00"

/-- Adds what stands at a location to a tree, with `levels` levels of directories. -/
partial def gather (levels : Nat) (location : Location) (tree : FileTree) : IO FileTree := do
  try
    let path := (entryAt location).path
    match (← path.symlinkMetadata).type with
    | .dir =>
      let mut tree := tree.plant (.directory []) location
      if 0 < levels then
        for child in ← path.readDir do
          tree ← gather (levels - 1) (location ++ [child.fileName]) tree
      return tree
    | .symlink =>
      let target? ← linkTarget? location
      let tree := tree.plant (linkNode target?) location
      match target? with
      | some target => gather 0 target tree
      | none => return tree
    | .file => return tree.plant (.file (← IO.FS.readBinFile path)) location
    | .other => return tree.plant (.file .empty) location
  catch _ => return tree

/-- Adds what stands at the end of a path to a tree, and the links that lead there. -/
def approach (levels : Nat) (tree : FileTree) (place : Location) : List String → IO FileTree
  | [] => gather levels place tree
  | segment :: rest => do
    if segment = "" ∨ segment = "." then approach levels tree place rest
    else if segment = ".." then approach levels tree place.dropLast rest
    else
      let next := place ++ [segment]
      let tree ← gather 0 next tree
      match tree.at? next with
      | some (.link _) =>
        match ← linkTarget? next with
        | some target => approach levels tree target rest
        | none => return tree
      | some _ => approach levels tree next rest
      | none => return tree

/-- The system with what is found at the given places. -/
def look (system : System) (places : List SearchPlace) : IO System :=
  places.foldlM (fun system place => do
    let start := if place.directory.isAbsolute then [] else system.workingDirectory
    let tree ← approach (place.depth + 1) system.tree start place.directory.segments
    return { system with tree }) system

/-- The part of the file system that a command looks at; without a command it is none. -/
def observe (command? : Option Command) : IO System := do
  let here ← IO.FS.realPath (← IO.currentDir)
  let workingDirectory := locationOf here.toString
  let tree := (FileTree.directory []).plant (.directory []) workingDirectory
  let system : System := { tree, workingDirectory }
  match command? with
  | some (.discover root output ecosystem) =>
    let settings := Command.discoverySettings output ecosystem
    let system ← look system (projectFootprint settings root)
    if ecosystem then look system (packageFootprint system settings root) else return system
  | some (.protocol registry _) => look system [⟨registry, 0⟩]
  | some (.render file registry) => look system [⟨file, 0⟩, ⟨registry, 0⟩]
  | none => return system

/-- The time that a file made just now carries. -/
def now : IO Time.Timestamp := do
  let (_, path) ← IO.FS.createTempFile
  let made := (← path.metadata).modified
  IO.FS.removeFile path
  return .ofClock made.sec made.nsec.toNat

/-- Puts a file in place as a whole. -/
def replace (path : Path) (text : String) : IO Unit := do
  let scratch := path ++ ".scratch~"
  try
    IO.FS.writeFile scratch text
    IO.FS.rename scratch path
  catch error =>
    try IO.FS.removeFile scratch catch _ => pure ()
    throw error

def logLine (event : Log.Event) : String :=
  let level := match event.level with
    | .warn => "WARN"
    | .info => "INFO"
    | .debug => "DEBUG"
  let fields := event.fields.map fun (name, value) => s!" {name}={value}"
  s!"{level} {event.message}" ++ String.join fields

/-- Carries out on disk what a command has done to the system. -/
def commit (command? : Option Command) (after : System) : IO Unit := do
  match command? with
  | some (.discover root output ecosystem) =>
    let path := (Command.discoverySettings output ecosystem).outputPath root
    match after.readText path with
    | .ok text => replace path text
    | .error _ => pure ()
  | _ => pure ()

def present (report : Report) : IO UInt32 := do
  IO.print report.output
  IO.eprint report.errors
  return UInt32.ofNat report.exitCode

/-- Responds to the arguments of the program, and carries out what the response asks for. -/
def execute (arguments : List String) : IO UInt32 := do
  let command? := (Command.read arguments).toOption
  let run := respond (← observe command?) (← now) arguments
  for event in run.trace do
    if event.level ≠ .debug then IO.eprintln (logLine event)
  let (report, after) := run.value
  if report.exitCode = 0 then
    try
      commit command? after
      present report
    catch error => present (.failure "Failed to write the registry" [error.toString])
  else present report

end Mosaic.Program

def main (arguments : List String) : IO UInt32 := Mosaic.Program.execute arguments
