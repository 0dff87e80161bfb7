import Mosaic.Log
import Mosaic.Registry.Schema

/-!
# Instructions for agents

The text that tells an agent which components it may use and how to put them
together. Without any known component it offers markdown only.
-/

namespace Mosaic.Registry.Instructions

/-- The component offered when no other is known. -/
def fallback : String := "markdown: Text content with formatting"

/-- The number of properties of a component among which the key ones are looked for. -/
def keyPropertyLimit : Nat := 3

def entrySpec (kind : String) (entry : Entry) : String :=
  let uses := (Schema.ofJson entry.schema).keyProperties keyPropertyLimit
  if uses.isEmpty then s!"{kind}: {entry.description}"
  else
    let listed := ", ".intercalate uses
    s!"{kind}: {entry.description} (uses: {listed})"

/-- One line for each component that may be used: those asked for, else those of the
manifest. -/
def specs (manifest : Option Manifest) (only : List String) : List String :=
  if only.isEmpty then
    match manifest with
    | some m => m.components.entries.map fun (kind, entry) => entrySpec kind entry
    | none => []
  else only.map fun kind => s!"{kind}: Available component"

/-- The types that the examples use, with one for each of the three roles. -/
structure Roles where
  first : String
  second : String
  third : String

def roles (only : List String) : Roles :=
  match if only.isEmpty then ["card", "table", "markdown"] else only with
  | [] => ⟨"card", "card", "card"⟩
  | [a] => ⟨a, a, a⟩
  | [a, b] => ⟨a, b, a⟩
  | a :: b :: c :: _ => ⟨a, b, c⟩

/-- A node in an example, with the written data. -/
def exampleNode (kind data : String) : String :=
  s!"\x7b\"type\": \"{kind}\", \"data\": \x7b{data}\x7d\x7d"

/-- The examples of how components are composed. -/
def patterns (r : Roles) : List String :=
  let first := exampleNode r.first "..."
  let second := exampleNode r.second "..."
  let third := exampleNode r.third "..."
  let filled := exampleNode r.first "\"title\": \"Revenue\", \"value\": \"$5M\""
  [ s!"- Single: [{filled}]",
    s!"- Multiple: [{first}, {second}]",
    s!"- Horizontal: [[{first}, {first}]]",
    s!"- Mixed: [{first}, [comp1, comp2], {third}]" ]

/-- The whole text, from the lines that list the components. -/
def text (specs : List String) (r : Roles) : String :=
  "\n".intercalate
    (["Available components:"] ++ specs.map (fun spec => s!"- {spec}") ++
      ["", "Composition patterns:"] ++ patterns r ++ ["", "Return JSON array format only."])

/-- The instructions for the given types, or for all types of a manifest. -/
def instructions (manifest : Option Manifest) (only : List String) : Logged String := do
  match specs manifest only with
  | [] =>
    Logged.warn "no component registry available, offering markdown only" []
    pure (text [fallback] (roles only))
  | known => pure (text known (roles only))

end Mosaic.Registry.Instructions
