import Mosaic.CommandLine.Arguments

/-!
# Commands

* `discover`: finds the components of a project and writes its registry.
* `protocol`: prints the instructions for agents.
* `render`: prints a composition as plain text.
-/

namespace Mosaic.CommandLine

open Files

inductive Command
  | discover (root : Path) (output : Option Path) (ecosystem : Bool)
  | protocol (registry : Path) (types : List String)
  | render (file registry : Path)
  deriving DecidableEq, Repr

namespace Command

def names : List String := ["discover", "protocol", "render"]

/-- The registry that is read unless another one is named. -/
def defaultRegistry : Path := "ai.json"

def readDiscover (arguments : List String) : Except Stop Command := do
  let given ← ({
    valued := [("root", none), ("output", some 'o')]
    flags := ["no-ecosystem"]
    wordLimit := some 0 } : Grammar).read arguments
  return .discover ((given.values.lookup "root").getD ".") (given.values.lookup "output")
    (!given.flags.contains "no-ecosystem")

def readProtocol (arguments : List String) : Except Stop Command := do
  let given ← ({ valued := [("registry", none)] } : Grammar).read arguments
  return .protocol ((given.values.lookup "registry").getD defaultRegistry) given.words

def readRender (arguments : List String) : Except Stop Command := do
  let given ← ({
    valued := [("registry", none)]
    wordLimit := some 1
    wordsArePaths := true } : Grammar).read arguments
  match given.words with
  | [file] => return .render file ((given.values.lookup "registry").getD defaultRegistry)
  | _ => .error .refused

/-- What the arguments of a request for help ask about. -/
def readHelp : List String → Except Stop Command
  | [] => .error .help
  | [topic] => .error (if names.contains topic ∨ topic = "help" then .help else .refused)
  | _ => .error .refused

/-- The command that the arguments of the program name. -/
def read : List String → Except Stop Command
  | "discover" :: rest => readDiscover rest
  | "protocol" :: rest => readProtocol rest
  | "render" :: rest => readRender rest
  | "help" :: rest => readHelp rest
  | argument :: _ =>
    match ({} : Grammar).item argument with
    | .help => .error .help
    | _ => .error .refused
  | [] => .error .refused

def usage : String :=
  "Usage: agentinterface <COMMAND>\n\nCommands:\n" ++
  "  discover [--root <ROOT>] [--output <OUTPUT>] [--no-ecosystem]\n" ++
  "  protocol [--registry <REGISTRY>] [TYPES]...\n" ++
  "  render [--registry <REGISTRY>] <FILE>\n"

end Command

end Mosaic.CommandLine
