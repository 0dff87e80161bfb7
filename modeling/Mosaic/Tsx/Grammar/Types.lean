import Mosaic.Tsx.Grammar.Basic

/-!
# Rules for types and binding patterns

Types leave no trace in the tree: it only matters where they end.
-/

namespace Mosaic.Tsx.Nesting

open Rule

variable (g : Nesting)

/-! ## Parameters -/

/-- Types in angle brackets, which something is applied to. -/
def typeArguments : Rule Unit := do
  sign "<"
  itemsUntil "," ">" g.type

/-- Whether a lexeme can begin the name of a member or parameter. -/
def startsName : Token → Bool
  | .word _ | .string _ | .number _ | .privateName => true
  | .sign s => s = "[" || s = openBrace || s = "*" || s = "..."
  | _ => false

/-- Words that only modify the name after them. -/
def modifiers (words : List String) : Rule Unit :=
  many do
    let w ← anyWord
    check (words.contains w)
    check (startsName (← peek).token)

/-- Names of types in angle brackets, perhaps with bounds and defaults. -/
def typeParameters : Rule Unit := do
  sign "<"
  itemsUntil "," ">" do
    modifiers ["const", "in", "out"]
    let _ ← anyWord
    if ← acceptWord "extends" then g.type
    after "=" g.type

def optionalTypeParameters : Rule Unit := do
  if ← atSign "<" then g.typeParameters

def typeAnnotation : Rule Unit := after ":" g.type

/-- The value of a binding that has none otherwise. -/
def defaultValue : Rule Unit := after "=" do
  let _ ← g.assignment

/-- The values that a function is called with. -/
def callArguments : Rule Unit := do
  sign "("
  itemsUntil "," ")" do
    let _ ← acceptSign "..."
    let _ ← g.assignment

/-- A decorator: a name with dots or an expression in parentheses, perhaps called. -/
def decorator : Rule Unit := do
  sign "@"
  if ← acceptSign "(" then
    let _ ← g.expression
    sign ")"
  else
    separated "." do let _ ← anyWord
  let _ ← attempt g.typeArguments
  if ← atSign "(" then g.callArguments

/-- A parameter, with the words that may stand before it. -/
def parameter : Rule Unit := do
  many g.decorator
  modifiers ["public", "private", "protected", "readonly", "override"]
  let _ ← acceptSign "..."
  if !(← acceptWord "this") then g.pattern
  let _ ← acceptSign "?"
  g.typeAnnotation
  g.defaultValue

def parameters : Rule Unit := do
  sign "("
  itemsUntil "," ")" g.parameter

/-- A type, or what a function asserts about a parameter. -/
def returnType : Rule Unit := do
  let predicate : Rule Unit := do
    let _ ← anyWord
    check (← onSameLine)
    word "is"
    g.type
  let assertion : Rule Unit := do
    word "asserts"
    check (← onSameLine)
    predicate <|> (do let _ ← anyWord)
  assertion <|> predicate <|> g.type

def optionalReturnType : Rule Unit := after ":" g.returnType

/-! ## Types -/

/-- The type of a function or constructor. -/
def functionType : Rule Unit := do
  g.optionalTypeParameters
  g.parameters
  sign "=>"
  g.returnType

/-- A name with its qualifiers and arguments. -/
def typeReference : Rule Unit := do
  separated "." do let _ ← anyWord
  if (← atSign "<") && (← onSameLine) then g.typeArguments

/-- The words that can be the whole name of a type although they are reserved. -/
def typeWords : List String := ["this", "null", "void", "true", "false"]

/-- The words before an operand type. -/
def typeOperators : List String := ["keyof", "unique", "readonly"]

/-- The words before a type that are no types themselves. -/
def dependentTypeWords : List String := ["keyof", "readonly", "infer", "unique"]

/-- A tuple, whose elements may have labels. -/
def tupleType : Rule Unit := do
  sign "["
  itemsUntil "," "]" do
    let _ ← acceptSign "..."
    let labelled : Rule Unit := do
      let _ ← anyWord
      let _ ← acceptSign "?"
      sign ":"
      g.type
    labelled <|> (do g.type; let _ ← acceptSign "?")

/-- The brackets that begin a member of an object type: a mapped or indexed range of
keys, or a computed key. -/
def memberBrackets : Rule Unit := do
  sign "["
  let mapped : Rule Unit := do
    let _ ← anyWord
    word "in"
    g.type
    if ← acceptWord "as" then g.type
    sign "]"
  let indexed : Rule Unit := do
    let _ ← anyWord
    sign ":"
    g.type
    sign "]"
  let computed : Rule Unit := do
    let _ ← g.expression
    sign "]"
  mapped <|> indexed <|> computed

/-- What stands between the name of a function and its body. -/
def signature : Rule Unit := do
  g.optionalTypeParameters
  g.parameters
  g.optionalReturnType

/-- The name of a member: a word, a string or a number, or something in brackets. -/
def memberName : Rule Unit := do
  if ← atSign "[" then g.memberBrackets
  else check (match (← next).token with
    | .word _ | .string _ | .number _ | .privateName => true
    | _ => false)

/-- A member of an object type: a constructor, a signature, or something with a name. -/
def typeMember : Rule Unit := do
  let _ ← attempt do
    if !(← acceptSign "-") then sign "+"
    word "readonly"
  modifiers ["readonly", "get", "set", "static", "public", "private", "protected", "declare",
    "abstract", "override", "async"]
  let construct : Rule Unit := do
    word "new"
    g.signature
  let named : Rule Unit := do
    g.memberName
    if ← acceptSign "-" then sign "?"
    else if ← acceptSign "+" then sign "?"
    else
      let _ ← acceptSign "?"
    if (← atSign "(") || (← atSign "<") then g.signature else g.typeAnnotation
  construct <|> g.signature <|> named

/-- An object type. Its members end with a semicolon, a comma or the line. -/
def objectType : Rule Unit := do
  sign openBrace
  iterate (fun _ => do
    if ← acceptSign closeBrace then return (false, ())
    g.typeMember
    let separated := (← acceptSign ";") || (← acceptSign ",")
    check (separated || (← atSign closeBrace) || !(← onSameLine))
    return (true, ())) ()

/-- The parts of an import that can be used as a type. -/
def importType : Rule Unit := do
  word "import"
  g.callArguments
  if ← acceptSign "." then separated "." do let _ ← anyWord
  let _ ← attempt g.typeArguments

/-- What the type of a value is asked of. -/
def typeQuery : Rule Unit := do
  word "typeof"
  g.importType <|> do
    separated "." do
      check (match (← next).token with
        | .word _ | .privateName => true
        | _ => false)
    if (← atSign "<") && (← onSameLine) then g.typeArguments

/-- A type without operators. -/
def baseType : Rule Unit := do
  match (← peek).token with
  | .string _ | .number _ => let _ ← next
  | .backquote => do
    let _ ← next
    let _ ← template g.type
  | .sign s =>
    if s = openBrace then g.objectType
    else if s = "[" then g.tupleType
    else if s = "(" then
      -- Only the arrow after the bracket tells parameters from a type in brackets.
      g.functionType <|> do
        sign "("
        g.type
        sign ")"
    else if s = "<" then g.functionType
    else if s = "-" then
      let _ ← next
      check (match (← next).token with
        | .number _ => true
        | _ => false)
    else failure
  | .word w =>
    if w = "new" then
      word "new"
      g.functionType
    else if w = "typeof" then g.typeQuery
    else if w = "import" then g.importType
    else
      let abstractType : Rule Unit := do
        word "abstract"
        word "new"
        g.functionType
      check (!reservedWords.contains w || typeWords.contains w)
      check (!dependentTypeWords.contains w)
      abstractType <|> g.typeReference
  | _ => failure

/-- A name that stands for a part of the type that is matched, perhaps with a constraint. What
follows `extends` there is the constraint, and never the condition of a conditional type. -/
def inferredType : Rule Unit := do
  word "infer"
  discard name
  if ← acceptWord "extends" then g.type

/-- A type with the operators before it and the brackets after it. -/
def operandType : Rule Unit := do
  many do
    let w ← anyWord
    check (typeOperators.contains w)
    check (← onSameLine)
    check (match (← peek).token with
      | .word w => w ≠ "extends" && w ≠ "is"
      | .string _ | .number _ | .backquote => true
      | .sign s => s = openBrace || s = "[" || s = "("
      | _ => false)
  g.inferredType <|> g.baseType
  many do
    check (← onSameLine)
    sign "["
    if !(← acceptSign "]") then
      g.type
      sign "]"

/-- Operand types with bars and ampersands between them, possibly one in front. -/
def compoundType : Rule Unit := do
  let combinator : Rule Unit := do
    if !(← acceptSign "|") then sign "&"
  let _ ← attempt combinator
  iterate (fun _ => do
    g.operandType
    return ((← attempt combinator).isSome, ())) ()

/-- A type, which may be conditional, as may each of its parts but the first. -/
def typeRule : Rule Unit := do
  g.compoundType
  let _ ← attempt do
    word "extends"
    g.type
    sign "?"
    g.type
    sign ":"
    g.type

/-! ## Patterns -/

/-- A pattern that takes members of an object. -/
def objectPattern : Rule Unit := do
  sign openBrace
  itemsUntil "," closeBrace do
    if ← acceptSign "..." then g.pattern
    else
      g.memberName
      after ":" g.pattern
      g.defaultValue

/-- A pattern that takes elements of an array, some of which may be left out. -/
def arrayPattern : Rule Unit := do
  sign "["
  iterate (fun _ => do
    if ← acceptSign "]" then return (false, ())
    if ← acceptSign "," then return (true, ())
    let _ ← acceptSign "..."
    g.pattern
    g.defaultValue
    if !(← acceptSign ",") then check (← atSign "]")
    return (true, ())) ()

/-- A name, or a pattern that takes something apart. -/
def patternRule : Rule Unit := do
  match (← peek).token with
  | .word _ => let _ ← name
  | .sign s =>
    if s = openBrace then g.objectPattern
    else if s = "[" then g.arrayPattern
    else failure
  | _ => failure

end Mosaic.Tsx.Nesting
