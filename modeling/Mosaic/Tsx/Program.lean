import Mosaic.Tsx.Grammar.Expressions
import Mosaic.Tsx.Grammar.Elements
import Mosaic.Tsx.Grammar.Statements

/-!
# Reading TSX sources

The rules of the grammar tied together, and the program that a source is.
-/

namespace Mosaic.Tsx

/-- The rules when constructs may be nested as deep as `depth`. -/
def grammar : (depth : Nat) → Nesting
  | 0 => .exhausted
  | depth + 1 =>
    let g := grammar depth
    { type := g.typeRule
      pattern := g.patternRule
      assignmentAt := g.assignmentRule
      operandAt := g.operandRule
      element := g.elementRule
      statement := g.statementRule }

/-- Statements up to the end of the text. -/
def programRule (g : Nesting) : Rule Program :=
  Rule.iterate (fun found => do
    if (← Rule.peek).token = .ending then return (false, found)
    return (true, found ++ [← g.statement])) []

/-- A text without the line that names an interpreter. -/
def skipInterpreterLine (text : Text) : Text :=
  match text with
  | '#' :: '!' :: rest => rest.dropWhile (!isLineEnd ·)
  | other => other

/-- The program of a source; `none` if it has a syntax error. At least every second
construct inside another one consumes a character, which bounds their depth. -/
def Program.parse? (source : String) : Option Program :=
  let text := source.toList
  ((programRule (grammar (2 * text.length + 2))).run (skipInterpreterLine text)).map (·.1)

end Mosaic.Tsx
