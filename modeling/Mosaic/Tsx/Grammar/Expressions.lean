import Mosaic.Tsx.Grammar.Functions

/-!
# Rules for expressions

Only what can be part of a static literal is kept: strings, templates, numbers,
arrays, objects, signs before an operand, and wrappers. How binary operators bind
is not, since no literal has one.

* `primary`, `operandRule`, `unary`: operands.
* `binaryRest`, `choiceRest`: what may follow an operand.
* `assignmentRule`: an expression without a comma at its top.
-/

namespace Mosaic.Tsx.Nesting

open Rule

variable (g : Nesting)

/-- A rule that leaves no trace. -/
def untraced (rule : Rule Unit) : Rule Expr := do
  rule
  pure .opaqueNode

/-- The comments before the next lexeme. -/
def commentsAhead : Rule (List String) := do return (← peek).trivia.comments

/-! ## Arrays, objects, parentheses -/

/-- An expression in parentheses. -/
def parenthesized : Rule Expr := do
  sign "("
  let before ← commentsAhead
  let inner ← g.expression
  g.typeAnnotation
  let after ← commentsAhead
  sign ")"
  pure (.wrapped .parentheses (before.map .comment ++ inner :: after.map .comment))

/-- An element of an array, which may be spread. -/
def arrayElement : Rule Expr := do
  if ← acceptSign "..." then
    let _ ← g.assignment
    pure .opaqueNode
  else g.assignment

/-- The elements of an array in order, with its comments; gaps are no elements. -/
def arrayLiteral : Rule Expr := do
  sign "["
  let children ← iterate (fun children => do
    let children := children ++ (← commentsAhead).map .comment
    if ← acceptSign "]" then return (false, children)
    if ← acceptSign "," then return (true, children)
    let element ← g.arrayElement
    let children := children ++ element :: (← commentsAhead).map .comment
    if ← acceptSign "," then return (true, children)
    sign "]"
    return (false, children)) []
  pure (.array children)

/-- The key of a property: a name, a string, a number, or an expression in brackets. -/
def key : Rule Key := do
  match (← next).token with
  | .word text | .number text => pure (.name text)
  | .string body => pure (.string body)
  | .privateName => pure .opaqueNode
  | .sign "[" =>
    let before ← commentsAhead
    let inner ← g.expression
    let after ← commentsAhead
    sign "]"
    pure (.computed (before.map .comment ++ inner :: after.map .comment))
  | _ => failure

/-- A key with its value. -/
def pair : Rule Member := do
  let key ← g.key
  let before ← commentsAhead
  sign ":"
  let after ← commentsAhead
  let value ← g.assignment
  pure (.pair key value (before ++ after))

/-- A name that is both the key and the value. -/
def shorthand : Rule Member := do
  let text ← name
  check ((← atSign ",") || (← atSign closeBrace))
  pure (.shorthand text)

/-- A member of an object; methods and spread values leave no trace. -/
def objectMember : Rule Member := do
  if ← acceptSign "..." then
    let _ ← g.assignment
    pure .opaqueNode
  else
    let method : Rule Member := do
      g.method
      pure .opaqueNode
    -- The words before a method are names of properties too, so methods come last.
    g.pair <|> shorthand <|> method

/-- The members of an object in order, with its comments. -/
def objectLiteral : Rule Expr := do
  sign openBrace
  let members ← iterate (fun members => do
    let members := members ++ (← commentsAhead).map .comment
    if ← acceptSign closeBrace then return (false, members)
    if ← acceptSign "," then return (true, members)
    let member ← g.objectMember
    let members := members ++ member :: (← commentsAhead).map .comment
    if ← acceptSign "," then return (true, members)
    sign closeBrace
    return (false, members)) []
  pure (.object members)

/-- A literal, or a pattern to which something is assigned. -/
def literalOrPattern (literal : Rule Expr) (pattern : Rule Unit) : Rule Expr :=
  literal <|> untraced do
    pattern
    check (← atSign "=")

/-! ## Operands -/

/-- A regular expression, where an operand is expected. -/
def regex : Rule Expr := do
  match (← peek).text with
  | '/' :: text =>
    match scanRegex text with
    | some rest => untraced (set rest)
    | none => failure
  | _ => failure

/-- An operand that begins with a word, most of which are opaque. -/
def wordOperand (text : String) : Rule Expr := do
  if text = "null" then
    word text
    pure .null
  else if text = "true" ∨ text = "false" then
    word text
    pure (.bool (text = "true"))
  else if text = "this" ∨ text = "super" then untraced (word text)
  else if text = "import" then untraced do
    word text
    check ((← atSign "(") || (← atSign "."))
  else if text = "new" then untraced do
    word text
    sign "."
    word "target"
  else if text = "class" ∨ text = "abstract" then untraced (g.classRule <|> discard name)
  else if text = "function" ∨ text = "async" then untraced (g.functionRule <|> discard name)
  else untraced (discard name)

/-- What an operand begins with. -/
def primary : Rule Expr := do
  match (← peek).token with
  | .word text => g.wordOperand text
  | .privateName => untraced do
    let _ ← next
    check (← atWord "in")
  | .number text => do
    let _ ← next
    pure (.number text)
  | .string body => do
    let _ ← next
    pure (.string body)
  | .backquote => do
    let _ ← next
    return .template (← template (discard g.expression))
  | .sign s =>
    if s = "(" then g.parenthesized
    else if s = "[" then literalOrPattern g.arrayLiteral g.arrayPattern
    else if s = openBrace then literalOrPattern g.objectLiteral g.objectPattern
    else if s = "/" ∨ s = "/=" then regex
    else if s = "@" then untraced g.classRule
    else if s = "<" then untraced g.element
    else failure
  | .ending => failure

/-! ## After an operand -/

/-- Whether type arguments of an expression may end before a lexeme, so that they are
not a comparison. -/
def mayFollowTypeArguments (lexeme : Lexeme) : Bool :=
  lexeme.trivia.newline ||
    match lexeme.token with
    | .ending | .backquote => true
    | .word w => w = "implements"
    | .sign s =>
      ["(", ")", "]", closeBrace, openBrace, ";", ",", ".", "?."].contains s
    | _ => false

/-- A member of what comes before, by its name. -/
def memberAccess : Rule Unit := do
  match (← next).token with
  | .word _ | .privateName => pure ()
  | _ => failure

/-- A member of what comes before, in brackets. -/
def subscript : Rule Unit := do
  sign "["
  let _ ← g.expression
  sign "]"

/-- A template that is given to what comes before. -/
def templateCall : Rule Unit := do
  let _ ← next
  let _ ← template (discard g.expression)

/-- What may follow the sign of an optional access. -/
def optionalAccess : Rule Unit := do
  match (← peek).token with
  | .sign "[" => g.subscript
  | .sign "(" => g.callArguments
  | .sign "<" =>
    g.typeArguments
    g.callArguments
  | .backquote => g.templateCall
  | _ => memberAccess

/-- One thing after an operand: an access, a call, an assertion. Tells whether there
was one. -/
def postfixStep (place : Place) (operand : Expr) : Rule (Bool × Expr) := do
  let lexeme ← peek
  let sameLine := !lexeme.trivia.newline || !place.lineEnds
  let continued (rule : Rule Unit) : Rule (Bool × Expr) := do
    rule
    pure (true, .opaqueNode)
  match lexeme.token with
  | .backquote => continued g.templateCall
  | .sign s =>
    if s = "." then continued (do let _ ← next; memberAccess)
    else if s = "?." then continued (do let _ ← next; g.optionalAccess)
    else if s = "[" then continued g.subscript
    else if s = "(" then continued g.callArguments
    else if s = "!" ∧ sameLine then do
      let _ ← next
      pure (true, .wrapped .nonNull (operand :: lexeme.trivia.comments.map .comment))
    else if (s = "++" ∨ s = "--") ∧ sameLine then continued (do let _ ← next)
    else if s = "<" then
      let arguments? ← attempt do
        g.typeArguments
        check (mayFollowTypeArguments (← peek))
      pure (arguments?.isSome, if arguments?.isSome then .opaqueNode else operand)
    else pure (false, operand)
  | _ => pure (false, operand)

/-- An operand with accesses, calls and assertions after it. -/
def operandRule (place : Place) : Rule Expr := do
  iterate (g.postfixStep place) (← g.primary)

/-! ## Operators -/

/-- The signs before an operand that yield a value of their own. -/
def unarySigns : List String := ["!", "~", "+", "-"]

/-- The words before an operand. -/
def unaryWords : List String := ["typeof", "void", "delete", "await"]

/-- An operator before an operand, if one comes next. -/
def prefixOperator? : Rule (Option String) := attempt do
  match (← next).token with
  | .sign s =>
    check (unarySigns.contains s || s = "++" || s = "--")
    pure s
  | .word w =>
    check (unaryWords.contains w || (w = "new" && !(← atSign ".")))
    pure w
  | _ => failure

/-- An operand and the operators before it, the last one first and each with the comments
behind it. -/
def prefixed (place : Place) : Rule (List (String × List String) × Expr) := do
  let operators ← iterate (fun operators => do
    match ← prefixOperator? with
    | some operator => return (true, (operator, ← commentsAhead) :: operators)
    | none => return (false, operators)) []
  return (operators, ← g.operandRule place)

/-- An operand with the operators before it, from the inside out. -/
def applyOperators (operators : List (String × List String)) (operand : Expr) : Expr :=
  operators.foldl (fun operand (operator, comments) =>
    if unarySigns.contains operator then .unary operator operand comments else .opaqueNode) operand

/-- An operand with the operators before it. -/
def unary (place : Place) : Rule Expr := do
  let (operators, operand) ← g.prefixed place
  pure (applyOperators operators operand)

/-- The signs of operators between two operands. -/
def binarySigns : List String :=
  ["+", "-", "*", "/", "%", "**", "==", "===", "!=", "!==", "<", "<=", "<<", "&", "|", "^", "&&",
    "||", "??"]

/-- The length of an operator that begins with a closing angle bracket, and whether it
assigns. -/
def angleOperator? (text : Text) : Option (Nat × Bool) :=
  match text with
  | '>' :: '>' :: '>' :: '=' :: _ => some (4, true)
  | '>' :: '>' :: '>' :: _ => some (3, false)
  | '>' :: '>' :: '=' :: _ => some (3, true)
  | '>' :: '>' :: _ => some (2, false)
  | '>' :: '=' :: _ => some (2, false)
  | '>' :: _ => some (1, false)
  | _ => none

/-- Consumes an operator that begins with a closing angle bracket. -/
def angleOperator (assigns : Bool) : Rule Unit := do
  let lexeme ← peek
  match angleOperator? lexeme.text with
  | some (length, assigning) =>
    check (assigning == assigns)
    set (lexeme.text.drop length)
  | none => failure

/-- An operator between two operands. -/
def binaryOperator : Rule Unit := do
  match (← peek).token with
  | .sign ">" => angleOperator false
  | .sign s =>
    check (binarySigns.contains s)
    sign s
  | .word w =>
    check (w = "in" || w = "instanceof")
    word w
  | _ => failure

/-- A type that is asserted of an expression. -/
def typeAssertion (place : Place) : Rule (Wrapper × List String) := do
  let lexeme ← peek
  check (!lexeme.trivia.newline || !place.lineEnds)
  if ← acceptWord "satisfies" then
    g.type
    pure (.satisfiesType, lexeme.trivia.comments)
  else
    word "as"
    if !(← acceptWord "const") then g.type
    pure (.asType, lexeme.trivia.comments)

/-- Operators with operands, and assertions, after an operand. -/
def binaryRest (place : Place) (left : Expr) : Rule Expr :=
  iterate (fun left => do
    match ← attempt (g.typeAssertion place) with
    | some (wrapper, comments) =>
      return (true, .wrapped wrapper (left :: comments.map .comment))
    | none =>
      if (← attempt binaryOperator).isSome then
        let _ ← g.unary place
        return (true, .opaqueNode)
      else return (false, left)) left

/-- The choice between two expressions that may follow a condition. Where the first of
the two could be an arrow function that swallows the colon, it is none. -/
def choiceRest (place : Place) (test : Expr) : Rule Expr := do
  if ← acceptSign "?" then
    let first (arrows : Bool) : Rule Unit := do
      let _ ← g.assignmentAt ⟨false, arrows⟩
      sign ":"
    first true <|> first false
    let _ ← g.assignmentAt place
    pure .opaqueNode
  else pure test

/-- What follows an operand up to an assignment. -/
def operatorsRest (place : Place) (operand : Expr) : Rule Expr := do
  g.choiceRest place (← g.binaryRest place operand)

/-- The signs that give something a value. -/
def assignmentSigns : List String :=
  ["=", "+=", "-=", "*=", "/=", "%=", "**=", "<<=", "&=", "|=", "^=", "&&=", "||=", "??="]

def assignmentOperator : Rule Unit := do
  match (← peek).token with
  | .sign ">" => angleOperator true
  | .sign s =>
    check (assignmentSigns.contains s)
    sign s
  | _ => failure

/-- What a generator yields, which may be nothing. -/
def yieldRule (place : Place) : Rule Unit := do
  word "yield"
  if ← acceptSign "*" then
    let _ ← g.assignmentAt place
  else
    let _ ← attempt do
      check (← onSameLine)
      g.assignmentAt place

/-- Whether a value may be assigned to an operand; calls are not told from names. -/
def isTarget : Expr → Bool
  | .opaqueNode | .array _ | .object _ => true
  | .wrapped .parentheses _ | .wrapped .nonNull _ => true
  | _ => false

/-- Whether an arrow function may begin with a token. -/
def beginsArrow : Token → Bool
  | .word _ => true
  | .sign s => s = "(" || s = "<"
  | _ => false

/-- An expression without a comma at its top: an arrow function, or operands with operators between
them, perhaps with a condition or an assignment. -/
def assignmentRule (place : Place) : Rule Expr := do
  let token := (← peek).token
  -- What begins an arrow function can also be a whole operand, so that comes second.
  let arrow? ← attempt do
    check (place.arrows && beginsArrow token)
    g.arrowFunction place
  if arrow?.isSome then
    g.operatorsRest place (← iterate (g.postfixStep place) .opaqueNode)
  else if token = .word "yield" then
    g.yieldRule place
    pure .opaqueNode
  else
    let (operators, operand) ← g.prefixed place
    let assigns ← if operators.isEmpty && isTarget operand then attempt assignmentOperator
      else pure none
    if assigns.isSome then untraced (discard (g.assignmentAt { place with arrows := true }))
    else g.operatorsRest place (applyOperators operators operand)

end Mosaic.Tsx.Nesting
