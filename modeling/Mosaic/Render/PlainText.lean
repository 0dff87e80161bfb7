import Mosaic.Json.Printer
import Mosaic.Render.UnitMap
import Mosaic.Text.Blank
import Mosaic.Text.Lines

/-!
# Plain text

The units for terminals and logs, each of which turns its props into a block of
text, and the layout of a rendered tree as indented text.

* `print`: the text of a tree.
* `plainText`: the units `card`, `markdown` and `suggestions`.
-/

namespace Mosaic.Render

open Mosaic.Composition

/-! ## Layout -/

/-- The indentation inside `depth` nested rows. -/
def indentation (depth : Nat) : List Char := List.replicate (2 * depth) ' '

/-- Every line of a text on a line of its own, indented. -/
def blockChars (depth : Nat) (text : List Char) : List Char :=
  (Text.lines text).flatMap fun line => indentation depth ++ line ++ ['\n']

mutual

/-- The text of a tree inside `depth` nested rows. A stack leaves a blank line after
each child; a row is announced and indents its children. -/
def treeChars (depth : Nat) : Rendered String → List Char
  | .row .stack children => stackChars depth children
  | .row .row children => indentation depth ++ "[row]\n".toList ++ rowChars (depth + 1) children
  | .unit _ output => blockChars depth output.toList
  | .placeholder p => indentation depth ++ p.text.toList ++ ['\n']

def stackChars (depth : Nat) : List (Rendered String) → List Char
  | [] => []
  | child :: rest => treeChars depth child ++ '\n' :: stackChars depth rest

def rowChars (depth : Nat) : List (Rendered String) → List Char
  | [] => []
  | child :: rest => treeChars depth child ++ rowChars depth rest

end

/-- The text of a tree, without blanks at its end. -/
def print (tree : Rendered String) : String :=
  String.ofList (Text.trimEnd (treeChars 0 tree))

/-! ## Text of props -/

/-- A text as it is, nothing for null, and anything else as JSON. -/
def scalarText : Json → String
  | .string s => s
  | .null => ""
  | other => other.compact

mutual

def propText : PropValue String → String
  | .value v => scalarText v
  | .component tree => print tree
  | .list items => "\n".intercalate (propTexts items)

def propTexts : List (PropValue String) → List String
  | [] => []
  | item :: rest => propText item :: propTexts rest

end

/-- The elements of a prop that holds a list, in whichever form; a prop that holds
no list is its own only element. -/
def propElements : PropValue String → List (PropValue String)
  | .list items => items
  | .value (.array items) => items.map .value
  | other => [other]

/-! ## Units -/

/-- The text of one action of a card: its label, if it has one. -/
def actionLabel : PropValue String → String
  | .value v => ((v.get? "label").bind Json.asString?).getD (scalarText v)
  | other => propText other

/-- A heading, the content, and the actions in brackets on one line. -/
def cardText (props : Props String) : String :=
  let title := ((props.lookup "title").bind (·.asString?)).map fun title => s!"# {title}"
  let content := (props.lookup "content").map propText
  let labels := (((props.lookup "actions").map propElements).getD []).map actionLabel
  let joined := "] [".intercalate labels
  let actions := if labels.isEmpty then none else some s!"[{joined}]"
  "\n".intercalate ([title, content, actions].filterMap id)

def markdownText (props : Props String) : String :=
  ((props.lookup "content").map propText).getD ""

/-- One line for each suggestion. -/
def suggestionsText (props : Props String) : String :=
  let elements := ((props.lookup "suggestions").map propElements).getD []
  "\n".intercalate (elements.map fun element => s!"> {propText element}")

/-- A unit that only depends on its props. -/
def textUnit (text : Props String → String) : RenderUnit String :=
  fun props _ => { output := text props }

/-- The units for plain text. -/
def plainText : UnitMap String :=
  ((UnitMap.insert ∅ "card" (textUnit cardText)).insert "markdown"
    (textUnit markdownText)).insert "suggestions" (textUnit suggestionsText)

end Mosaic.Render
