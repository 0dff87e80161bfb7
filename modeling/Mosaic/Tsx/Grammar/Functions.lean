import Mosaic.Tsx.Grammar.Types

/-!
# Rules for functions and classes

Blocks, functions, arrow functions, methods and classes. Like types they leave no
trace in the tree.

* `statementEnd`: where a statement may end without a semicolon.
* `block`, `functionRule`, `arrowFunction`, `method`, `classRule`: functions and classes
  that are expressions; `functionDeclaration`, `classDeclaration`: those that are declared.
-/

namespace Mosaic.Tsx

/-! ## Ends of statements -/

/-- The signs that always go on with what the line before them began. -/
def continuingSigns : List Char :=
  ['\x60', ',', ':', ';', '*', '%', '>', '<', '=', '?', '^', '|', '&', '/']

/-- The brackets that go on with an expression. After anything else, such as a type, they begin
something new. -/
def continuingBrackets : List Char := ['[', '(']

/-- Whether a text after the end of a line goes on with what the line before it began, which may
be an expression. Increments and negations begin something new, and so does a number. -/
def continuesLine (afterExpression : Bool) (text : Text) : Bool :=
  match text with
  | '.' :: rest => !(rest.head?.any Char.isDigit)
  | '+' :: rest => rest.head? != some '+'
  | '-' :: rest => rest.head? != some '-'
  | '!' :: rest => rest.head? == some '='
  | c :: _ =>
    let word := String.ofList (text.take (wordLength text))
    continuingSigns.contains c || (afterExpression && continuingBrackets.contains c) ||
      word = "in" || word = "instanceof"
  | [] => false

namespace Rule

/-- The end of a statement: a semicolon, or a place where one is understood. Where that is depends
on whether the statement so far ends with an expression. -/
def statementEnd (afterExpression : Bool) : Rule Unit := do
  if !(← acceptSign ";") then
    let lexeme ← peek
    check (lexeme.token = .ending || lexeme.token = .sign closeBrace ||
      (lexeme.trivia.newline && !continuesLine afterExpression lexeme.text))

end Rule

namespace Nesting

open Rule

variable (g : Nesting)

/-! ## Functions -/

def block : Rule Unit := do
  sign openBrace
  iterate (fun _ => do
    if ← acceptSign closeBrace then return (false, ())
    let _ ← g.statement
    return (true, ())) ()

/-- A block, or the end of a declaration that has none. -/
def bodyOrEnd : Rule Unit := do
  if ← atSign openBrace then g.block else statementEnd false

/-- A function from its keyword on. -/
def functionWith (naming body : Rule Unit) : Rule Unit := do
  let _ ← attempt do
    word "async"
    check (← onSameLine)
  word "function"
  let _ ← acceptSign "*"
  naming
  g.signature
  body

/-- A name that may be left out. -/
def optionalName : Rule Unit := discard (attempt name)

/-- A function that is an expression. -/
def functionRule : Rule Unit := g.functionWith optionalName g.block

/-- A function that is declared, with or without a body. -/
def functionDeclaration : Rule Unit := g.functionWith (discard name) g.bodyOrEnd

def arrowFunction (place : Place) : Rule Unit := do
  let function : Rule Unit := do
    (do let _ ← name) <|> g.signature
    sign "=>"
    if ← atSign openBrace then g.block
    else
      let _ ← g.assignmentAt { place with arrows := true }
  let asynchronous : Rule Unit := do
    word "async"
    let lexeme ← peek
    check (!lexeme.trivia.newline || continuesLine true lexeme.text)
    function
  asynchronous <|> function

/-- What may stand before the name of a method. -/
def methodModifiers : Rule Unit := do
  modifiers ["public", "private", "protected", "static", "override", "readonly", "declare",
    "abstract", "accessor", "async", "get", "set"]
  let _ ← acceptSign "*"

/-- A method of an object. -/
def method : Rule Unit := do
  modifiers ["async", "get", "set"]
  let _ ← acceptSign "*"
  g.memberName
  let _ ← acceptSign "?"
  g.signature
  g.block

/-! ## Classes -/

/-- The value of a field. -/
def fieldValue : Rule Unit := after "=" do
  let _ ← g.assignmentAt .last

def classMember : Rule Unit := do
  let memberEnd (afterExpression : Bool) : Rule Unit := do
    if !(← acceptSign ",") then statementEnd afterExpression
  let staticBlock : Rule Unit := do
    word "static"
    g.block
  let member : Rule Unit := do
    many g.decorator
    methodModifiers
    let _ ← attempt do
      if !(← acceptSign "-") then sign "+"
      word "readonly"
    g.memberName
    if !(← acceptSign "?") then
      let _ ← acceptSign "!"
    if (← atSign "(") || (← atSign "<") then
      g.signature
      if ← atSign openBrace then
        g.block
        let _ ← acceptSign ";"
      else memberEnd false
    else
      g.typeAnnotation
      let valued ← atSign "="
      g.fieldValue
      memberEnd valued
  if !(← acceptSign ";") then staticBlock <|> member

def classBody : Rule Unit := do
  sign openBrace
  iterate (fun _ => do
    if ← acceptSign closeBrace then return (false, ())
    g.classMember
    return (true, ())) ()

/-- A class with what stands before its keyword. -/
def classWith (naming : Rule Unit) : Rule Unit := do
  many g.decorator
  let _ ← acceptWord "abstract"
  word "class"
  naming
  g.optionalTypeParameters
  if ← acceptWord "extends" then
    separated "," do
      let _ ← g.operandAt .last
      let _ ← attempt g.typeArguments
  if ← acceptWord "implements" then separated "," g.type
  g.classBody

/-- A class that is an expression. -/
def classRule : Rule Unit :=
  g.classWith do
    if !(← atWord "implements") then optionalName

/-- A class that is declared. -/
def classDeclaration : Rule Unit := g.classWith (discard name)

end Nesting

end Mosaic.Tsx
