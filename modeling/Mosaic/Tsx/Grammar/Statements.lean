import Mosaic.Tsx.Grammar.Functions

/-!
# Rules for statements

Of a statement only an exported declaration of variables is kept.

* `declarators`: the variables of a declaration.
* `exportRule`, `importRule`: what a module gives and takes.
* `statementRule`: any statement.
-/

namespace Mosaic.Tsx.Nesting

open Rule

variable (g : Nesting)

/-- A rule that yields no statement of interest. -/
def other (rule : Rule Unit) : Rule Statement := do
  rule
  pure .other

/-! ## Variables -/

/-- A variable of a declaration: a name or a pattern, and its value. -/
def declarator : Rule Declarator := do
  let bound : Rule (Option String) := some <$> name
  let name? ← bound <|> (do g.pattern; pure none)
  let _ ← acceptSign "!"
  g.typeAnnotation
  if ← acceptSign "=" then
    let value ← g.assignmentAt .last
    pure ⟨name?, some value⟩
  else pure ⟨name?, none⟩

/-- The word before the variables of a declaration. -/
def variableWord : Rule Unit := do
  let w ← anyWord
  check (w = "var" || w = "let" || w = "const")

/-- The variables of a declaration, with the word before them. -/
def declarators : Rule (List Declarator) := do
  variableWord
  iterate (fun found => do
    let found := found ++ [← g.declarator]
    return (← acceptSign ",", found)) []

/-- A declaration of variables. It ends with an expression if its last variable has a value. -/
def variableDeclaration : Rule (List Declarator) := do
  let found ← g.declarators
  statementEnd (found.getLast?.any (·.value.isSome))
  pure found

/-! ## Declarations of types and namespaces -/

/-- An interface, which may extend others. -/
def interfaceRule : Rule Unit := do
  word "interface"
  let _ ← name
  g.optionalTypeParameters
  if ← acceptWord "extends" then separated "," g.type
  g.objectType

def typeAlias : Rule Unit := do
  word "type"
  let _ ← name
  g.optionalTypeParameters
  sign "="
  g.type
  statementEnd false

/-- An enumeration, whose members may have values. -/
def enumeration : Rule Unit := do
  let _ ← acceptWord "const"
  word "enum"
  let _ ← name
  sign openBrace
  itemsUntil "," closeBrace do
    g.memberName
    g.defaultValue

/-- A name with dots, or the text of a string. -/
def moduleName : Rule Unit := do
  match (← peek).token with
  | .string _ => discard next
  | _ => separated "." (discard anyWord)

/-- A namespace, with its content or without. -/
def namespaceRule : Rule Unit := do
  let w ← anyWord
  check (w = "namespace" || w = "module")
  check (← onSameLine)
  moduleName
  g.bodyOrEnd

/-- Declarations for all modules. -/
def globalRule : Rule Unit := do
  word "global"
  g.block

/-- The words that begin a declaration. -/
def declarationWords : List String :=
  ["var", "let", "const", "function", "async", "class", "abstract", "interface", "type", "enum",
    "namespace", "module", "import"]

/-- A declaration of what exists elsewhere. -/
def ambient : Rule Unit := do
  word "declare"
  check (← onSameLine)
  match (← peek).token with
  | .word w =>
    if w = "global" then g.globalRule
    else if w = "class" then g.classDeclaration
    else if w = "function" then g.functionDeclaration
    else
      check (declarationWords.contains w)
      discard g.statement
  | _ => failure

/-- Declarations that begin with a word that may also be a name. -/
def contextualDeclaration? (w : String) : Option (Rule Unit) :=
  if w = "interface" then some g.interfaceRule
  else if w = "type" then some g.typeAlias
  else if w = "namespace" ∨ w = "module" then some g.namespaceRule
  else if w = "declare" then some g.ambient
  else if w = "global" then some g.globalRule
  else if w = "abstract" then some g.classDeclaration
  else if w = "async" then some g.functionDeclaration
  else none

/-! ## Modules -/

/-- The text of a string. -/
def stringRule : Rule Unit := do
  check (match (← next).token with
    | .string _ => true
    | _ => false)

/-- The source of an import or export, and its attributes. -/
def moduleSource : Rule Unit := do
  stringRule
  let _ ← attempt do
    if !(← acceptWord "with") then
      check (← onSameLine)
      word "assert"
    let _ ← g.assignment

/-- A name of a module's member, which may be a string. -/
def exportedName : Rule Unit := discard anyWord <|> stringRule

/-- Names between braces, each perhaps renamed. -/
def specifiers : Rule Unit := do
  let renamed : Rule Unit := do
    exportedName
    if ← acceptWord "as" then exportedName
    check ((← atSign ",") || (← atSign closeBrace))
  let marked : Rule Unit := do
    let w ← anyWord
    check (w = "type" || w = "typeof")
    renamed
  sign openBrace
  itemsUntil "," closeBrace (renamed <|> marked)

/-- All names of a module at once. -/
def wholeModule (binding : Rule Unit) : Rule Unit := do
  sign "*"
  if ← acceptWord "as" then binding

/-- What an import takes from a module: one name, several, or all of them under one. -/
def importNames : Rule Unit := do
  let several : Rule Unit := specifiers <|> do
    sign "*"
    word "as"
    discard name
  let single : Rule Unit := do
    discard name
    after "," several
  several <|> single

/-- A name for a part of a namespace. -/
def namespaceAlias : Rule Unit := do
  discard name
  sign "="
  separated "." (discard anyWord)

/-- A name for a required module. -/
def requiredModule : Rule Unit := do
  discard name
  sign "="
  word "require"
  sign "("
  stringRule
  sign ")"

/-- An import, which may take types only, or nothing but the effects of a module. -/
def importRule : Rule Unit := do
  word "import"
  let clause : Rule Unit := do
    importNames
    word "from"
    g.moduleSource
  let form : Rule Unit := clause <|> requiredModule <|> namespaceAlias
  let marked : Rule Unit := do
    let w ← anyWord
    check (w = "type" || w = "typeof")
    form
  g.moduleSource <|> marked <|> form
  statementEnd false

/-- The declarations that may be exported, by the word with which they begin. -/
def exportedDeclaration? (w : String) : Option (Rule Statement) :=
  let bound : Rule Statement := .exportedVariables <$> g.variableDeclaration
  let shortcut : Rule Unit := do
    word "import"
    namespaceAlias
    statementEnd false
  if w = "var" ∨ w = "let" then some bound
  else if w = "const" then some (other g.enumeration <|> bound)
  else if w = "enum" then some (other g.enumeration)
  else if w = "function" then some (other g.functionDeclaration)
  else if w = "class" then some (other g.classDeclaration)
  else if w = "import" then some (other shortcut)
  else (g.contextualDeclaration? w).map other

/-- The default of a module: a declaration, or else a value. -/
def exportDefault : Rule Statement := do
  word "default"
  let value : Rule Statement := other do
    let _ ← g.assignmentAt .last
    statementEnd true
  match (← peek).token with
  | .word w =>
    match g.exportedDeclaration? w with
    | some rule => rule <|> value
    | none => value
  | .sign s => if s = "@" then other g.classDeclaration <|> value else value
  | _ => value

/-- An export of names, be they the module's own or those of another. -/
def exportNames : Rule Unit := do
  let source : Rule Unit := do
    word "from"
    g.moduleSource
  let all : Rule Unit := do
    wholeModule exportedName
    source
  let named : Rule Unit := do
    specifiers
    if ← atWord "from" then source
  all <|> named
  statementEnd false

/-- Names that are exported as types. -/
def exportTypeNames : Rule Unit := do
  word "type"
  g.exportNames

/-- The forms of an export that assign or rename the whole module. -/
def exportWhole : Rule Unit := do
  if ← acceptSign "=" then
    let _ ← g.assignmentAt .last
    statementEnd true
  else
    word "as"
    word "namespace"
    discard name
    statementEnd false

/-- An export, which is kept if it declares variables. -/
def exportRule : Rule Statement := do
  many g.decorator
  word "export"
  match (← peek).token with
  | .sign s =>
    if s = "=" then other g.exportWhole
    else if s = "@" then other g.classDeclaration
    else other g.exportNames
  | .word w =>
    if w = "default" then g.exportDefault
    else if w = "as" then other g.exportWhole
    else
      match g.exportedDeclaration? w with
      | some rule => rule <|> other g.exportTypeNames
      | none => failure
  | _ => failure

/-! ## Control -/

def condition : Rule Unit := do
  sign "("
  let _ ← g.expression
  sign ")"

/-- A condition with what follows it; an `else` belongs to the condition just before it. -/
def ifRule : Rule Unit := do
  word "if"
  g.condition
  let _ ← g.statement
  if ← acceptWord "else" then
    let _ ← g.statement

/-- The head of a loop over the keys or members of something. -/
def memberLoopHead : Rule Unit := do
  let target : Rule Unit := do
    let declared : Rule Unit := do
      variableWord
      g.pattern
      g.typeAnnotation
      g.defaultValue
    -- An operand ends before `in`, which an expression would take for an operator.
    declared <|> discard (g.operandAt .bracketed)
    if !(← acceptWord "of") then word "in"
  sign "("
  target
  let _ ← g.expression
  sign ")"

/-- The head of a loop that counts, each of whose parts may be missing. -/
def countingLoopHead : Rule Unit := do
  sign "("
  let start : Rule Unit := discard g.declarators <|> discard g.expression
  if !(← acceptSign ";") then
    start
    sign ";"
  if !(← acceptSign ";") then
    let _ ← g.expression
    sign ";"
  if !(← acceptSign ")") then
    let _ ← g.expression
    sign ")"

def forRule : Rule Unit := do
  word "for"
  let _ ← acceptWord "await"
  g.memberLoopHead <|> g.countingLoopHead
  discard g.statement

/-- A loop that asks before each round. -/
def whileRule : Rule Unit := do
  word "while"
  g.condition
  discard g.statement

/-- A loop that asks after each round. Its semicolon may be missing even within a line. -/
def doRule : Rule Unit := do
  word "do"
  let _ ← g.statement
  word "while"
  g.condition
  let _ ← acceptSign ";"

/-- One case of a choice, up to the next one. -/
def switchCase : Rule Unit := do
  if !(← acceptWord "default") then
    word "case"
    let _ ← g.expression
  sign ":"
  iterate (fun _ => do
    if (← atWord "case") || (← atWord "default") || (← atSign closeBrace) then return (false, ())
    let _ ← g.statement
    return (true, ())) ()

def switchRule : Rule Unit := do
  word "switch"
  g.condition
  sign openBrace
  iterate (fun _ => do
    if ← acceptSign closeBrace then return (false, ())
    g.switchCase
    return (true, ())) ()

/-- Statements with what is done when they fail, and what is done at any rate. -/
def tryRule : Rule Unit := do
  word "try"
  g.block
  if ← acceptWord "catch" then
    if ← acceptSign "(" then
      g.pattern
      g.typeAnnotation
      sign ")"
    g.block
  if ← acceptWord "finally" then g.block

/-- A jump, alone or with its operand: a label, or a value, which is an expression. -/
def jump (w : String) (operand : Rule Unit) (isExpression : Bool) : Rule Unit := do
  word w
  statementEnd false <|> do
    operand
    statementEnd isExpression

/-! ## Statements -/

/-- An expression that stands for itself. -/
def expressionStatement : Rule Unit := do
  let _ ← g.expressionAt .last
  statementEnd true

/-- A statement that its first word, a keyword, makes known. -/
def keywordStatement? (w : String) : Option (Rule Unit) :=
  let value : Rule Unit := discard (g.expressionAt .last)
  if w = "var" then some (discard g.variableDeclaration)
  else if w = "const" then some (g.enumeration <|> discard g.variableDeclaration)
  else if w = "function" then some (g.functionDeclaration <|> g.expressionStatement)
  else if w = "class" then some (g.classDeclaration <|> g.expressionStatement)
  else if w = "enum" then some g.enumeration
  else if w = "if" then some g.ifRule
  else if w = "for" then some g.forRule
  else if w = "while" then some g.whileRule
  else if w = "do" then some g.doRule
  else if w = "switch" then some g.switchRule
  else if w = "try" then some g.tryRule
  else if w = "return" then some (jump w value true)
  else if w = "throw" then some (do word w; value; statementEnd true)
  else if w = "break" then some (jump w (discard name) false)
  else if w = "continue" then some (jump w (discard name) false)
  else if w = "debugger" then some (do word w; statementEnd false)
  else if w = "with" then some do
    word w
    g.condition
    discard g.statement
  else none

/-- A statement behind its label. -/
def labelled : Rule Unit := do
  discard name
  sign ":"
  discard g.statement

/-- **Any statement.** Its first lexeme tells which rules come into question; words that may also be
names are tried as declarations first. -/
def statementRule : Rule Statement := do
  match (← peek).token with
  | .word w =>
    if w = "export" then g.exportRule
    else if w = "import" then other (g.importRule <|> g.expressionStatement)
    else if w = "let" then other (discard g.variableDeclaration <|> g.expressionStatement)
    else
      match g.keywordStatement? w with
      | some rule => other rule
      | none =>
        match g.contextualDeclaration? w with
        | some rule => other (rule <|> g.labelled <|> g.expressionStatement)
        | none => other (g.labelled <|> g.expressionStatement)
  | .sign s =>
    if s = ";" then other (sign s)
    else if s = openBrace then other g.block
    else if s = "@" then g.exportRule <|> other (g.classDeclaration <|> g.expressionStatement)
    else other g.expressionStatement
  | _ => other g.expressionStatement

end Mosaic.Tsx.Nesting
