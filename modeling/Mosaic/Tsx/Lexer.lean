import Mosaic.Json.Reader
import Mosaic.Text.Blank

/-!
# Words and signs of TSX

The lexical level of TSX sources. A lexeme is taken from the front of the text on
demand, since the same characters mean different things at different places: a
slash may divide or open a regular expression, an angle bracket may compare or
open an element.

* `skipTrivia`: blanks and comments.
* `numberLength`, `wordLength`, `scanString`, `scanRegex`: single lexemes.
* `nextLexeme`: the longest lexeme at the front of a text.
-/

namespace Mosaic.Tsx

/-! ## Characters -/

/-- The characters that end a line, and with it a line comment. -/
def isLineEnd (c : Char) : Bool :=
  c = '\n' || c = '\r' || c = '\u2028' || c = '\u2029'

/-- Blanks between lexemes, the invisible joiners among them. -/
def isSpace (c : Char) : Bool :=
  Text.isBlank c || c = '\ufeff' || c = '\u2060' || c = '\u200b'

/-- The ASCII characters that never belong to a word. -/
def signs : List Char :=
  [':', ';', '\x60', '"', '\'', '@', '#', '.', ',', '|', '^', '&', '<', '=', '>', '+', '-', '*',
    '/', '\\', '%', '?', '!', '~', '(', ')', '[', ']', '{', '}']

/-- The characters with which a word may begin: all that are no blank, digit or sign. -/
def isWordStart (c : Char) : Bool :=
  0x20 ≤ c.toNat && !isSpace c && !c.isDigit && !signs.contains c

/-- The characters of which a word goes on. -/
def isWordChar (c : Char) : Bool := isWordStart c || c.isDigit

/-- Hexadecimal digits of either case. -/
def isHexDigit (c : Char) : Bool := (Json.hexValue? c).isSome

/-- Octal digits. -/
def isOctalDigit (c : Char) : Bool := '0' ≤ c && c ≤ '7'

/-! ## Blanks and comments -/

/-- What stood between two lexemes. -/
structure Trivia where
  /-- Whether a line ended there. -/
  newline : Bool := false
  comments : List String := []

/-- Where the reader of blanks and comments stands. -/
inductive Trivia.Mode
  | between
  | lineComment
  | blockComment

/-- Skips blanks and comments. `comment` holds the characters of the comment that
is being read, last one first. A comment that is not closed is an error. -/
def skipTriviaFrom (mode : Trivia.Mode) (trivia : Trivia) (comment : List Char) :
    List Char → Option (Trivia × List Char)
  | [] =>
    match mode with
    | .between => some (trivia, [])
    | .lineComment => some ({ trivia with comments := trivia.comments ++ [close comment] }, [])
    | .blockComment => none
  | c :: rest =>
    match mode with
    | .between =>
      if c = '/' then
        match rest with
        | '/' :: rest => skipTriviaFrom .lineComment trivia ['/', '/'] rest
        | '*' :: rest => skipTriviaFrom .blockComment trivia ['*', '/'] rest
        | _ => some (trivia, c :: rest)
      else if isSpace c then
        skipTriviaFrom .between { trivia with newline := trivia.newline || isLineEnd c } [] rest
      else some (trivia, c :: rest)
    | .lineComment =>
      if isLineEnd c then
        skipTriviaFrom .between ⟨true, trivia.comments ++ [close comment]⟩ [] rest
      else skipTriviaFrom .lineComment trivia (c :: comment) rest
    | .blockComment =>
      -- The star that opens a comment cannot close it as well.
      let ended := c = '/' && comment.head? = some '*' && 3 ≤ comment.length
      if ended then
        skipTriviaFrom .between
          { trivia with comments := trivia.comments ++ [close (c :: comment)] } [] rest
      else
        skipTriviaFrom .blockComment { trivia with newline := trivia.newline || isLineEnd c }
          (c :: comment) rest
where
  close (comment : List Char) : String := String.ofList comment.reverse

/-- Skips the blanks and comments before the next lexeme. -/
def skipTrivia (text : List Char) : Option (Trivia × List Char) :=
  skipTriviaFrom .between {} [] text

/-! ## Escapes, words, strings -/

/-- The number of characters that an escape has after its backslash, in a string or
template. -/
def escapeLength? : List Char → Option Nat
  | [] => none
  | 'x' :: a :: b :: _ => if isHexDigit a && isHexDigit b then some 3 else none
  | 'u' :: '{' :: rest =>
    let digits := rest.takeWhile isHexDigit
    match rest.drop digits.length with
    | '}' :: _ => if digits.isEmpty then none else some (digits.length + 3)
    | _ => none
  | 'u' :: a :: b :: c :: d :: _ => if [a, b, c, d].all isHexDigit then some 5 else none
  | '\r' :: '\n' :: _ => some 2
  | c :: rest =>
    if c = 'x' ∨ c = 'u' then none
    else if isOctalDigit c then some (((rest.take 2).takeWhile isOctalDigit).length + 1)
    else some 1

/-- The length of the word at the front of a text. Its characters may be written as
escapes of code points. `pending` characters of such an escape are still to come. -/
def wordLengthFrom (pending : Nat) : List Char → Nat
  | [] => 0
  | c :: rest =>
    match pending with
    | pending + 1 => wordLengthFrom pending rest + 1
    | 0 =>
      if c = '\\' ∧ rest.head? = some 'u' then
        match escapeLength? rest with
        | some length => wordLengthFrom length rest + 1
        | none => 0
      else if isWordChar c then wordLengthFrom 0 rest + 1
      else 0

/-- The length of the word at the front of a text; zero if there is none. -/
def wordLength (text : List Char) : Nat :=
  match text with
  | c :: _ => if isWordStart c ∨ c = '\\' then wordLengthFrom 0 text else 0
  | [] => 0

/-- The length of a string with its closing quote, after the opening one. `pending`
characters of an escape are still to come. -/
def stringLengthFrom? (quote : Char) (pending : Nat) : List Char → Option Nat
  | [] => none
  | c :: rest =>
    match pending with
    | pending + 1 => (stringLengthFrom? quote pending rest).map (· + 1)
    | 0 =>
      if c = '\\' then
        match escapeLength? rest with
        | some length => (stringLengthFrom? quote length rest).map (· + 1)
        | none => none
      else if c = quote then some 1
      else if c = '\n' ∨ c = '\r' then none
      else (stringLengthFrom? quote 0 rest).map (· + 1)

/-- The body of a string whose opening quote has been consumed, as it is spelled. -/
def scanString (quote : Char) (text : List Char) : Option (List Char × List Char) :=
  (stringLengthFrom? quote 0 text).map fun length =>
    (text.take (length - 1), text.drop length)

/-! ## Numbers -/

/-- The length of digits with single underscores between them; `none` without a digit. -/
def digitsLength? (isDigit : Char → Bool) : List Char → Option Nat
  | [] => none
  | c :: rest =>
    if !isDigit c then none
    else
      match rest with
      | '_' :: more => some (((digitsLength? isDigit more).map (· + 2)).getD 1)
      | more => some (((digitsLength? isDigit more).map (· + 1)).getD 1)

/-- The length of decimal digits with single underscores between them. -/
def decimalLength? : List Char → Option Nat := digitsLength? Char.isDigit

/-- The length of an integer that a point may follow: no zero in front except a single
one. -/
def wholeLength? (text : List Char) : Option Nat :=
  let nonZero (text : List Char) : Option Nat :=
    if text.head? = some '0' then none else decimalLength? text
  match text with
  | '0' :: rest => some (((nonZero rest).map (· + 1)).getD 1)
  | other => nonZero other

/-- The length of an exponent with its letter and its sign. -/
def exponentLength? : List Char → Option Nat
  | c :: rest =>
    let signed := rest.head? = some '+' ∨ rest.head? = some '-'
    if c = 'e' ∨ c = 'E' then
      if signed then (decimalLength? (rest.drop 1)).map (· + 2)
      else (decimalLength? rest).map (· + 1)
    else none
  | [] => none

/-- The length of the suffix of integers of any size. -/
def bigSuffixLength (text : List Char) : Nat := if text.head? = some 'n' then 1 else 0

/-- The length of a number with a point or an exponent. -/
def fractionalLength? (text : List Char) : Option Nat :=
  let withExponent (length : Nat) : Nat :=
    length + (exponentLength? (text.drop length)).getD 0
  match text with
  | '.' :: rest => (decimalLength? rest).map fun n => withExponent (n + 1)
  | _ =>
    (wholeLength? text).bind fun whole =>
      match text.drop whole with
      | '.' :: rest => some (withExponent (whole + 1 + (decimalLength? rest).getD 0))
      | rest => (exponentLength? rest).map (whole + ·)

/-- The length of a number in the radix that its prefix announces. -/
def radixLength? : List Char → Option Nat
  | '0' :: c :: rest =>
    let isDigit? : Option (Char → Bool) :=
      if c = 'x' ∨ c = 'X' then some isHexDigit
      else if c = 'o' ∨ c = 'O' then some isOctalDigit
      else if c = 'b' ∨ c = 'B' then some fun d => d = '0' || d = '1'
      else none
    isDigit?.bind fun isDigit =>
      (digitsLength? isDigit rest).map fun n => n + 2 + bigSuffixLength (rest.drop n)
  | _ => none

/-- The length of the longest number at the front of a text; zero if there is none. -/
def numberLength (text : List Char) : Nat :=
  let integer := (decimalLength? text).map fun n => n + bigSuffixLength (text.drop n)
  max ((radixLength? text).getD 0) (max ((fractionalLength? text).getD 0) (integer.getD 0))

/-! ## Regular expressions -/

/-- The text after the closing slash of a regular expression. -/
def skipRegexBody (inClass : Bool) : List Char → Option (List Char)
  | [] => none
  | '\\' :: c :: rest => if isLineEnd c then none else skipRegexBody inClass rest
  | c :: rest =>
    if c = '\n' ∨ c = '\\' then none
    else if inClass then skipRegexBody (c ≠ ']') rest
    else if c = '/' then some rest
    else skipRegexBody (c = '[') rest

/-- The text after a regular expression whose opening slash has been consumed. -/
def scanRegex (text : List Char) : Option (List Char) :=
  match text with
  | '/' :: _ => none
  | _ => (skipRegexBody false text).map (·.dropWhile fun c => 'a' ≤ c && c ≤ 'z')

/-! ## Lexemes -/

/-- What a lexeme is, with its text where this matters. -/
inductive Token
  | word (text : String)
  /-- A name that begins with a number sign. -/
  | privateName
  | number (text : String)
  | string (body : String)
  | sign (text : String)
  /-- The opening quote of a template. -/
  | backquote
  | ending
  deriving DecidableEq

/-- A lexeme in its place: what stood before it and what follows. -/
structure Lexeme where
  token : Token
  /-- The text from the first character of the lexeme on. -/
  text : List Char
  rest : List Char
  trivia : Trivia

/-- The signs of several characters, longer ones first. A closing angle bracket is
always a sign of its own. -/
def longSigns : List (List Char) :=
  ["...", "===", "!==", "**=", "<<=", "&&=", "||=", "??=", "=>", "==", "!=", "<=", "&&", "||",
    "??", "?.", "++", "--", "+=", "-=", "*=", "/=", "%=", "&=", "|=", "^=", "**",
    "<<"].map String.toList

/-- The length of the longest sign at the front of a text; zero if there is none. A
question mark before a fraction stands for itself. -/
def signLength (text : List Char) : Nat :=
  match text with
  | [] => 0
  | c :: rest =>
    if !signs.contains c then 0
    else
      let beforeFraction := match rest with
        | '.' :: d :: _ => c = '?' && d.isDigit
        | _ => false
      if beforeFraction then 1
      else ((longSigns.find? (·.isPrefixOf text)).map List.length).getD 1

/-- The characters up to a length as a token, and the rest. -/
def cut (length : Nat) (token : String → Token) (text : List Char) : Token × List Char :=
  (token (String.ofList (text.take length)), text.drop length)

/-- The token at the front of a text that begins with neither blank nor comment. -/
def scanToken (text : List Char) : Option (Token × List Char) :=
  match text with
  | [] => some (.ending, [])
  | '"' :: rest => (scanString '"' rest).map fun (body, rest) => (.string (String.ofList body), rest)
  | '\'' :: rest => (scanString '\'' rest).map fun (body, rest) => (.string (String.ofList body), rest)
  | '\x60' :: rest => some (.backquote, rest)
  | '#' :: rest =>
    match wordLength rest with
    | 0 => none
    | length => some (.privateName, rest.drop length)
  | _ =>
    -- A fraction may begin with a point, so numbers are tried before signs.
    match numberLength text, wordLength text, signLength text with
    | 0, 0, 0 => none
    | 0, 0, length => some (cut length .sign text)
    | 0, length, _ => some (cut length .word text)
    | length, _, _ => some (cut length .number text)

/-- The next lexeme of a text; `none` if no lexeme can stand there. -/
def nextLexeme (text : List Char) : Option Lexeme := do
  let (trivia, start) ← skipTrivia text
  let (token, rest) ← scanToken start
  some { token, text := start, rest, trivia }

end Mosaic.Tsx
