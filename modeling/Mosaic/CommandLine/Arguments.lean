import Mosaic.Files.Path

/-!
# Arguments

The arguments of a program, taken apart into options and words. An option has a value
if its grammar says so; everything after two hyphens is a word.

* `Grammar`: the options and the number of words that a command takes.
* `Grammar.read`: the arguments that are given, or why reading them stopped.
-/

namespace Mosaic.CommandLine

/-- Why no command is run. -/
inductive Stop
  | help
  | refused
  deriving DecidableEq, Repr

/-- What may be given to a command. -/
structure Grammar where
  /-- The options with a value, which is a path, and their letters. -/
  valued : List (String × Option Char) := []
  flags : List String := []
  /-- How many words there may be, if not any number. -/
  wordLimit : Option Nat := none
  /-- Whether words are paths, which are never empty. -/
  wordsArePaths : Bool := false

/-- What is given to a command. -/
structure Given where
  values : List (String × String) := []
  flags : List String := []
  words : List String := []

namespace Grammar

variable (grammar : Grammar)

def addValue (given : Given) (option value : String) : Except Stop Given :=
  if value = "" ∨ (given.values.lookup option).isSome then .error .refused
  else .ok { given with values := given.values ++ [(option, value)] }

def addFlag (given : Given) (flag : String) : Except Stop Given :=
  if given.flags.contains flag then .error .refused
  else .ok { given with flags := given.flags ++ [flag] }

def addWord (given : Given) (word : String) : Except Stop Given :=
  let full := grammar.wordLimit.any fun limit => limit ≤ given.words.length
  if full || (grammar.wordsArePaths && word = "") then .error .refused
  else .ok { given with words := given.words ++ [word] }

/-- An argument that begins with a hyphen and goes on is no word. -/
def isOption (argument : String) : Bool :=
  match argument.toList with
  | '-' :: _ :: _ => true
  | _ => false

/-- What an argument asks for. -/
inductive Item
  | escape
  | help
  | flag (name : String)
  | valued (name : String) (attached : Option String)
  | word (text : String)
  | unknown

/-- The name of a long option and the value attached to it by an equals sign. -/
def splitLong (text : List Char) : String × Option String :=
  let name := String.ofList (text.takeWhile (· ≠ '='))
  match text.dropWhile (· ≠ '=') with
  | _ :: value => (name, some (String.ofList value))
  | [] => (name, none)

def longItem (text : List Char) : Item :=
  match splitLong text with
  | (name, attached) =>
    if (grammar.valued.map Prod.fst).contains name then .valued name attached
    else if attached.isSome then .unknown
    else if name = "help" then .help
    else if grammar.flags.contains name then .flag name
    else .unknown

/-- An option of one letter; its value may follow at once, after an equals sign or not. -/
def shortItem (letter : Char) (text : List Char) : Item :=
  if letter = 'h' then .help
  else
    match grammar.valued.find? fun option => option.2 == some letter with
    | none => .unknown
    | some (name, _) =>
      match text with
      | [] => .valued name none
      | '=' :: value => .valued name (some (String.ofList value))
      | value => .valued name (some (String.ofList value))

def item (argument : String) : Item :=
  match argument.toList with
  | ['-', '-'] => .escape
  | '-' :: '-' :: text => grammar.longItem text
  | '-' :: letter :: text => grammar.shortItem letter text
  | _ => .word argument

/-- Reads arguments one after the other; the first one that is wrong ends it. -/
def readFrom (given : Given) : List String → Except Stop Given
  | [] => .ok given
  | argument :: rest =>
    match grammar.item argument with
    | .escape => rest.foldlM grammar.addWord given
    | .help => .error .help
    | .flag name => do readFrom (← addFlag given name) rest
    | .valued name (some value) => do readFrom (← addValue given name value) rest
    | .valued name none =>
      match rest with
      | value :: rest =>
        if isOption value then .error .refused
        else do readFrom (← addValue given name value) rest
      | [] => .error .refused
    | .word text => do readFrom (← grammar.addWord given text) rest
    | .unknown => .error .refused

def read (arguments : List String) : Except Stop Given := grammar.readFrom {} arguments

end Grammar

end Mosaic.CommandLine
