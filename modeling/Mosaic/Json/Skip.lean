import Mosaic.Json.Reader

/-!
# Skipping JSON

The value of a key that nobody asked for is only passed over. Nothing is built
from it, so its nesting is not limited, its numbers may be of any size and its
surrogate codes need no partner; a stack of the containers that are open is all
that is kept.
-/

namespace Mosaic.Json

inductive Bracket
  | list
  | object
  deriving DecidableEq

namespace Bracket

def opening? (c : Char) : Option Bracket :=
  if c = '[' then some .list else if c = '{' then some .object else none

def closing : Bracket → Char
  | .list => ']'
  | .object => '}'

def ended : Bracket → SyntaxCause
  | .list => .endOfList
  | .object => .endOfObject

def expectedEnd : Bracket → SyntaxCause
  | .list => .expectedListEnd
  | .object => .expectedObjectEnd

end Bracket

/-- The text after a string whose opening quote has been consumed. -/
def skipString : List Char → Except Fault (List Char)
  | [] => fault .endOfString [] 0
  | '"' :: rest => .ok rest
  | '\\' :: [] => fault .endOfString [] 0
  | '\\' :: 'u' :: rest =>
    match rest with
    | a :: b :: c :: d :: tail =>
      if (hexWord? a b c d).isSome then skipString tail else badHex rest
    | short => badHex short
  | '\\' :: c :: rest =>
    if (simpleEscape? c).isSome then skipString rest else fault .invalidEscape (c :: rest) 1
  | c :: rest => if c.toNat < 0x20 then fault .controlCharacter (c :: rest) 0 else skipString rest

def skipDigits (text : List Char) : List Char := text.dropWhile Char.isDigit

def startsWithDigit : List Char → Bool
  | c :: _ => c.isDigit
  | [] => false

def skipExponent (text : List Char) : Except Fault (List Char) :=
  let (_, rest) := Decimal.splitSign text
  if startsWithDigit rest then .ok (skipDigits rest) else fault .invalidNumber rest 1

def skipFraction (text : List Char) : Except Fault (List Char) :=
  if !startsWithDigit text then fault .invalidNumber text 1
  else
    match skipDigits text with
    | 'e' :: rest | 'E' :: rest => skipExponent rest
    | rest => .ok rest

/-- The text after a number without its minus sign. -/
def skipNumber (text : List Char) : Except Fault (List Char) :=
  let whole : Except Fault (List Char) :=
    match text with
    | [] => fault .invalidNumber [] 0
    | c :: rest =>
      if c = '0' then
        if startsWithDigit rest then fault .invalidNumber rest 1 else .ok rest
      else if c.isDigit then .ok (skipDigits rest)
      else fault .invalidNumber text 1
  whole.bind fun
    | '.' :: rest => skipFraction rest
    | 'e' :: rest | 'E' :: rest => skipExponent rest
    | rest => .ok rest

/-- The text after a value that is neither an array nor an object. -/
def skipScalar (c : Char) (rest : List Char) : Except Fault (List Char) :=
  if c = 'n' then readWord ['u', 'l', 'l'] rest
  else if c = 't' then readWord ['r', 'u', 'e'] rest
  else if c = 'f' then readWord ['a', 'l', 's', 'e'] rest
  else if c = '"' then skipString rest
  else if c = '-' then skipNumber rest
  else if c.isDigit then skipNumber (c :: rest)
  else fault .expectedValue (c :: rest) 1

/-- The text of the next value in a container: behind a key and a colon in an
object, where it stands in a list. -/
def skipKey (bracket : Bracket) (text : List Char) : Except Fault (List Char) :=
  match bracket with
  | .list => .ok text
  | .object =>
    match skipBlanks text with
    | [] => fault .endOfObject [] 1
    | '"' :: rest => (skipString rest).bind readColon
    | other => fault .keyNotString other 1

/-- Closes containers after a complete value, up to one that has another element.
Returns the containers that stay open and the text of that element; none stay
open at the end of the outermost value. -/
def skipClosing : List Bracket → List Char → Except Fault (List Bracket × List Char)
  | [], text => .ok ([], text)
  | bracket :: below, text =>
    match skipBlanks text with
    | [] => fault bracket.ended [] 1
    | c :: rest =>
      if c = ',' then (skipKey bracket rest).map (bracket :: below, ·)
      else if c = bracket.closing then skipClosing below rest
      else fault bracket.expectedEnd (c :: rest) 1

/-- The text that follows the opening of a container: closes it again at once, or
goes on to its first element. -/
def skipOpening (bracket : Bracket) (stack : List Bracket) (text : List Char) :
    Except Fault (List Bracket × List Char) :=
  match skipBlanks text with
  | [] => fault bracket.ended [] 1
  | c :: rest =>
    if c = bracket.closing then skipClosing stack rest
    else (skipKey bracket (c :: rest)).map (bracket :: stack, ·)

/-- Skips values until no container is open any more. -/
def skipFrom : (fuel : Nat) → List Bracket → List Char → Except Fault (List Char)
  | 0, _, text => fault .endOfValue text 1
  | fuel + 1, stack, text =>
    match skipBlanks text with
    | [] => fault .endOfValue [] 1
    | c :: rest => do
      let (stack, rest) ← match Bracket.opening? c with
        | some bracket => skipOpening bracket stack rest
        | none => do skipClosing stack (← skipScalar c rest)
      if stack.isEmpty then .ok rest else skipFrom fuel stack rest

/-- The text after a value of any kind. -/
def skipValue (text : List Char) : Except Fault (List Char) := skipFrom text.length [] text

end Mosaic.Json
