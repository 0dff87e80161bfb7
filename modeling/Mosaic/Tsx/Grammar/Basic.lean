import Mosaic.Tsx.Lexer
import Mosaic.Tsx.Syntax

/-!
# Grammar rules

A rule reads from the front of a text and either fails or yields what it read and
the text that is left. Rules do not call themselves: what may be nested inside a
rule is given to it as a `Nesting`, and all rules are tied together once, by
recursion on the depth of nesting. Loops are bounded by the length of the text.
-/

namespace Mosaic.Tsx

abbrev Text := List Char

/-- A grammar rule. -/
abbrev Rule := StateT Text Option

namespace Rule

/-- The next lexeme, which stays where it is. -/
def peek : Rule Lexeme := do nextLexeme (← get)

/-- The next lexeme, which is consumed. -/
def next : Rule Lexeme := do
  let lexeme ← peek
  set lexeme.rest
  pure lexeme

def attempt (rule : Rule α) : Rule (Option α) := (some <$> rule) <|> pure none

/-- Succeeds if a condition holds. -/
def check (condition : Bool) : Rule Unit := if condition then pure () else failure

/-- Consumes a sign, if it comes next. -/
def acceptSign (sign : String) : Rule Bool := do
  let lexeme ← peek
  if lexeme.token = .sign sign then
    set lexeme.rest
    pure true
  else pure false

/-- Consumes a word, if it comes next. -/
def acceptWord (word : String) : Rule Bool := do
  let lexeme ← peek
  if lexeme.token = .word word then
    set lexeme.rest
    pure true
  else pure false

def sign (s : String) : Rule Unit := do check (← acceptSign s)

def word (w : String) : Rule Unit := do check (← acceptWord w)

/-- Whether a sign comes next. -/
def atSign (s : String) : Rule Bool := do return (← peek).token = .sign s

/-- Whether a word comes next. -/
def atWord (w : String) : Rule Bool := do return (← peek).token = .word w

/-- Whether a lexeme comes next on the same line. -/
def onSameLine : Rule Bool := do return !(← peek).trivia.newline

/-- Any word, keywords included. -/
def anyWord : Rule String := do
  match (← next).token with
  | .word text => pure text
  | _ => failure

/-- The rule, if the given sign comes first. -/
def after (s : String) (rule : Rule Unit) : Rule Unit := do
  if ← acceptSign s then rule

/-- Repeats a step as long as it asks for it, once for each character of `bound` and
once more at most. -/
def repeatFrom (step : σ → Rule (Bool × σ)) : (bound : Text) → σ → Rule σ
  | [], state => do
    let (goesOn, state) ← step state
    if goesOn then failure else pure state
  | _ :: bound, state => do
    let (goesOn, state) ← step state
    if goesOn then repeatFrom step bound state else pure state

/-- Repeats a step as long as it asks for it. Each round but the last consumes
something, so that the text bounds their number. -/
def iterate (step : σ → Rule (Bool × σ)) (state : σ) : Rule σ := do
  repeatFrom step (← get) state

/-- Repeats a rule, which consumes something, as long as it succeeds. -/
def many (rule : Rule Unit) : Rule Unit :=
  iterate (fun _ => do return ((← attempt rule).isSome, ())) ()

/-- Items up to a closing sign, with separators between them; one more separator
may stand before the closing sign. -/
def itemsUntil (separator closing : String) (item : Rule Unit) : Rule Unit :=
  iterate (fun _ => do
    if ← acceptSign closing then return (false, ())
    item
    if ← acceptSign separator then return (true, ())
    sign closing
    return (false, ())) ()

/-- One or more items with separators between them. -/
def separated (separator : String) (item : Rule Unit) : Rule Unit :=
  iterate (fun _ => do
    item
    return (← acceptSign separator, ())) ()

end Rule

def openBrace : String := "\x7b"
def closeBrace : String := "\x7d"

/-- The words that are not names. -/
def reservedWords : List String :=
  ["break", "case", "catch", "class", "const", "continue", "debugger", "default", "delete", "do",
    "else", "enum", "export", "extends", "false", "finally", "for", "function", "if", "import",
    "in", "instanceof", "new", "null", "return", "super", "switch", "this", "throw", "true",
    "try", "typeof", "var", "void", "while", "with"]

/-- A name that is no keyword. -/
def Rule.name : Rule String := do
  let text ← Rule.anyWord
  Rule.check (!reservedWords.contains text)
  pure text

/-- What may be read at the place where an expression stands. -/
structure Place where
  /-- Whether the end of a line may end the expression, as it may in a statement but
  not between brackets. -/
  lineEnds : Bool
  /-- Whether an arrow function may come first. -/
  arrows : Bool

/-- The place of an expression between brackets. -/
def Place.bracketed : Place := ⟨false, true⟩

/-- The place of an expression at the end of a statement. -/
def Place.last : Place := ⟨true, true⟩

/-- The rules for what may be nested: each may hold all others. -/
structure Nesting where
  type : Rule Unit
  pattern : Rule Unit
  /-- An expression without a comma at its top. -/
  assignmentAt : Place → Rule Expr
  /-- An operand with what follows it, but without operators. -/
  operandAt : Place → Rule Expr
  element : Rule Unit
  statement : Rule Statement

namespace Nesting

/-- No construct may be nested any more. -/
def exhausted : Nesting where
  type := failure
  pattern := failure
  assignmentAt := fun _ => failure
  operandAt := fun _ => failure
  element := failure
  statement := failure

def assignment (g : Nesting) : Rule Expr := g.assignmentAt .bracketed

/-- Expressions with commas between them. -/
def expressionAt (g : Nesting) (place : Place) : Rule Expr := do
  let first ← g.assignmentAt place
  if ← Rule.atSign "," then
    Rule.iterate (fun _ => do
      if ← Rule.acceptSign "," then
        let _ ← g.assignmentAt place
        return (true, ())
      else return (false, ())) ()
    pure .opaqueNode
  else pure first

def expression (g : Nesting) : Rule Expr := g.expressionAt .bracketed

/-- The length of template text with the backquote or the two signs that end it, and
whether a substitution follows. `pending` characters of an escape are still to come. -/
def templateTextLength? (pending : Nat) : Text → Option (Nat × Bool)
  | [] => none
  | c :: rest =>
    let longer (ending : Option (Nat × Bool)) : Option (Nat × Bool) :=
      ending.map fun (length, more) => (length + 1, more)
    match pending with
    | pending + 1 => longer (templateTextLength? pending rest)
    | 0 =>
      if c = '\x60' then some (1, false)
      else if c = '$' ∧ rest.head? = some '{' then some (2, true)
      else if c = '\\' then
        match escapeLength? rest with
        | some length => longer (templateTextLength? length rest)
        | none => none
      else longer (templateTextLength? 0 rest)

/-- Template text as it is spelled; tells whether a substitution follows. -/
def templateText : Rule (Text × Bool) := do
  let text ← get
  match templateTextLength? 0 text with
  | some (length, more) =>
    set (text.drop length)
    pure (text.take (length - if more then 2 else 1), more)
  | none => failure

/-- The rest of a template after its opening quote. The result is the spelling before
the first substitution, or all of it. -/
def template (substitution : Rule Unit) : Rule String := do
  let (head, more) ← templateText
  if more then
    Rule.iterate (fun _ => do
      substitution
      Rule.sign closeBrace
      return ((← templateText).2, ())) ()
  pure (String.ofList head)

end Nesting

end Mosaic.Tsx
