import Mosaic.Tsx.Grammar.Functions

/-!
# Rules for elements

Elements are read character by character between their tags, where blanks and quotes
are plain text and only braces, tags and character references are not.
-/

namespace Mosaic.Tsx.Nesting

open Rule

variable (g : Nesting)

/-! ## Names and references -/

def isElementNameChar (c : Char) : Bool := isWordChar c || c = '-'

/-- The name of an element or attribute: a word in which hyphens may stand. -/
def hyphenated : Rule Unit := do
  let lexeme ← peek
  check (lexeme.text.head?.any isWordStart)
  set (lexeme.text.dropWhile isElementNameChar)

def elementName : Rule Unit := do
  hyphenated
  if ← acceptSign ":" then hyphenated
  else if ← acceptSign "." then separated "." hyphenated

/-- The text after a character reference whose ampersand has been consumed. -/
def skipReference (text : Text) : Option Text :=
  let ended (isDigit : Char → Bool) (limit : Nat) (text : Text) : Option Text :=
    let digits := text.takeWhile isDigit
    match text.dropWhile isDigit with
    | ';' :: rest => if digits.isEmpty || limit < digits.length then none else some rest
    | _ => none
  match text with
  | '#' :: c :: rest =>
    if c = 'x' ∨ c = 'X' then ended isHexDigit 6 rest else ended Char.isDigit 5 (c :: rest)
  | _ => ended Char.isAlpha 30 text

/-- The text after the closing quote of an attribute. An ampersand before a letter or
number sign begins a character reference. -/
def skipAttributeText (quote : Char) : (fuel : Nat) → Text → Option Text
  | 0, _ => none
  | fuel + 1, text =>
    match text with
    | [] => none
    | '&' :: c :: rest =>
      if c = '#' ∨ c.isAlpha then
        (skipReference (c :: rest)).bind (skipAttributeText quote fuel)
      else skipAttributeText quote fuel rest
    | c :: rest => if c = quote then some rest else skipAttributeText quote fuel rest

/-! ## Attributes -/

/-- An expression in braces, which may be left out. -/
def embedded : Rule Unit := do
  sign openBrace
  if !(← acceptSign closeBrace) then
    let _ ← acceptSign "..."
    let _ ← g.expression
    sign closeBrace

/-- Quotes do not hold a string here, so the token behind them is not looked at. -/
def attributeString : Rule Unit := do
  match ← skipTrivia (← get) with
  | (_, quote :: text) =>
    check (quote = '"' || quote = '\'')
    set (← skipAttributeText quote (text.length + 1) text)
  | _ => failure

def elementAttribute : Rule Unit := do
  if ← atSign openBrace then g.embedded
  else
    elementName
    if ← acceptSign "=" then
      attributeString <|> g.embedded <|> g.element

/-! ## Elements -/

/-- The characters at which the plain text of an element ends. -/
def textEnds : List Char := ['<', '{', '&', '>', '}']

/-- What stands between the tags of an element, and its closing tag. -/
def children : Rule Unit :=
  iterate (fun _ => do
    match (← get).dropWhile fun c => !textEnds.contains c with
    | '{' :: rest =>
      set ('{' :: rest)
      g.embedded
      return (true, ())
    | '&' :: rest =>
      set (← skipReference rest)
      return (true, ())
    | '<' :: rest =>
      set rest
      if ← acceptSign "/" then
        let _ ← attempt elementName
        sign ">"
        return (false, ())
      else
        set ('<' :: rest)
        g.element
        return (true, ())
    | _ => failure) ()

def elementRule : Rule Unit := do
  sign "<"
  if ← acceptSign ">" then g.children
  else
    elementName
    let _ ← attempt g.typeArguments
    many g.elementAttribute
    if ← acceptSign "/" then sign ">"
    else
      sign ">"
      g.children

end Mosaic.Tsx.Nesting
