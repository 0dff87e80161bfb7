import Mosaic.CommandLine.Command
import Mosaic.Discovery.Survey
import Mosaic.Registry.Instructions
import Mosaic.Render.Interpreter
import Mosaic.Render.PlainText

/-!
# What commands report

A command reads a file system and reports an exit code, its output and its errors; a
survey also leaves a registry behind.

* `Command.run`: the report of a command, the file system afterwards and the log.
* `respond`: the same from the arguments of the program.
-/

namespace Mosaic.CommandLine

open Files Registry Render

structure Report where
  exitCode : Nat
  output : String := ""
  errors : String := ""

namespace Report

def success (output : String) : Report := { exitCode := 0, output }

/-- A cause with its later lines indented like the first one. -/
def indented (first others : String) (cause : String) : String :=
  let lines := (Text.pieces '\n' cause.toList).map String.ofList
  first ++ ("\n" ++ others).intercalate lines ++ "\n"

/-- A number, right-aligned under the fifth column. -/
def numbered (n : Nat) : String :=
  let digits := toString n
  "".pushn ' ' (5 - digits.length) ++ digits ++ ": "

/-- The causes of an error, numbered if there are several. -/
def causesText : List String → String
  | [] => ""
  | [cause] => "\nCaused by:\n" ++ indented "    " "    " cause
  | causes =>
    "\nCaused by:\n" ++
      String.join (causes.zipIdx.map fun (cause, n) => indented (numbered n) "       " cause)

/-- The report of a command that failed at `context`, with the chain of causes. -/
def failure (context : String) (causes : List String) : Report :=
  { exitCode := 1, errors := s!"Error: {context}\n" ++ causesText causes }

end Report

namespace Command

def discoverySettings (output : Option Path) (ecosystem : Bool) : Discovery.Settings :=
  let settings : Discovery.Settings := { ecosystem }
  { settings with output := output.getD settings.output }

/-- What is printed about a registry that has been written. -/
def summary (manifest : Manifest) (path : Path) : String :=
  let types := ", ".intercalate manifest.components.sortedKeys
  s!"Found {manifest.totalComponents} components from {manifest.sources.size} sources\n" ++
    s!"Types: {types}\nWrote {path}\n"

/-- The registry at a path, if there is one. -/
def loadRegistry (system : System) (path : Path) : Except Report (Option Manifest) :=
  if system.isPresent path then
    match Manifest.load system path with
    | .ok manifest => .ok (some manifest)
    | .error error => .error (.failure s!"Failed to load registry {path}" error.chain)
  else .ok none

/-- The text of a composition that is read from a file. -/
def renderFile (system : System) (file registry : Path) : Except Report (Logged String) := do
  let text ← (system.readText file).mapError fun fault =>
    Report.failure s!"Failed to read {file}" [fault.message]
  let manifest ← loadRegistry system registry
  let schemas := (manifest.map SchemaStore.ofManifest).getD ∅
  let renderer : Renderer String := { units := plainText, schemas := some schemas }
  let steps ← (renderer.render (.text text)).mapError fun malformed =>
    Report.failure s!"Invalid composition in {file}" [malformed.message, malformed.error.message]
  return { value := print steps.value, trace := steps.trace.filterMap Step.logEvent? }

def run (system : System) (now : Time.Timestamp) : Command → Logged (Report × System)
  | .discover root output ecosystem => do
    let settings := discoverySettings output ecosystem
    match ← Discovery.build system settings root now with
    | .ok (manifest, written) =>
      pure (.success (summary manifest (settings.outputPath root)), written)
    | .error error =>
      pure (.failure s!"Failed to build registry for {root}" error.chain, system)
  | .protocol registry types =>
    match loadRegistry system registry with
    | .error report => pure (report, system)
    | .ok manifest => do
      let text ← Instructions.instructions manifest types
      pure (.success (text ++ "\n"), system)
  | .render file registry =>
    match renderFile system file registry with
    | .error report => pure (report, system)
    | .ok text => do
      let text ← text
      pure (.success (text ++ "\n"), system)

end Command

/-- What the program does with its arguments. -/
def respond (system : System) (now : Time.Timestamp) (arguments : List String) :
    Logged (Report × System) :=
  match Command.read arguments with
  | .ok command => command.run system now
  | .error .help => pure (.success Command.usage, system)
  | .error .refused => pure ({ exitCode := 2, errors := Command.usage }, system)

end Mosaic.CommandLine
