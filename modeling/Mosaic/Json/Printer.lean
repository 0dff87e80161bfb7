import Mosaic.Json.Value
import Mosaic.Decimal.Shortest

/-!
# Writing JSON

* `Json.compact`: the text without any blank.
* `Json.pretty`: one element or member a line, indented by two spaces a level;
  empty containers stay closed.

Both are written over lists of characters, element by element, so that a reader
of the text can be compared with them.
-/

namespace Mosaic.Json

/-- Floating-point numbers are written positionally from `0.00001` up to sixteen
digits before the point, and with a signed exponent otherwise. -/
def floatLayout : Decimal.Layout :=
  { leastPoint := -4, greatestPoint := 16, positiveExponent := "+" }

def integerText (n : Int) : List Char :=
  if n < 0 then '-' :: Nat.toDigits 10 n.natAbs else Nat.toDigits 10 n.natAbs

def Number.text : Number → List Char
  | .int n => integerText n
  | .float x => (floatLayout.render x).toList

/-- The lower-case hexadecimal digit of a number below sixteen. -/
def hexDigit (n : Nat) : Char := Nat.digitChar n

/-- The written form of one character of a string. Only quotes, backslashes and
control characters are escaped. -/
def escapeChar (c : Char) : List Char :=
  if c = '"' then ['\\', '"']
  else if c = '\\' then ['\\', '\\']
  else if c = '\x08' then ['\\', 'b']
  else if c = '\t' then ['\\', 't']
  else if c = '\n' then ['\\', 'n']
  else if c = '\x0c' then ['\\', 'f']
  else if c = '\r' then ['\\', 'r']
  else if c.toNat < 0x20 then
    ['\\', 'u', '0', '0', hexDigit (c.toNat / 16), hexDigit (c.toNat % 16)]
  else [c]

def quote (text : String) : List Char := '"' :: (text.toList.flatMap escapeChar ++ ['"'])

mutual

/-- The compact text of a value. -/
def compactChars : Json → List Char
  | .null => ['n', 'u', 'l', 'l']
  | .bool true => ['t', 'r', 'u', 'e']
  | .bool false => ['f', 'a', 'l', 's', 'e']
  | .number n => n.text
  | .string s => quote s
  | .array items => '[' :: compactItems items
  | .object members => '{' :: compactMembers members

/-- The items of an array from the first one on, with the closing bracket. -/
def compactItems : List Json → List Char
  | [] => [']']
  | item :: rest => compactChars item ++ compactItemsTail rest

def compactItemsTail : List Json → List Char
  | [] => [']']
  | item :: rest => ',' :: (compactChars item ++ compactItemsTail rest)

/-- The members of an object from the first one on, with the closing brace. -/
def compactMembers : List (String × Json) → List Char
  | [] => ['}']
  | (key, value) :: rest =>
    quote key ++ ':' :: (compactChars value ++ compactMembersTail rest)

def compactMembersTail : List (String × Json) → List Char
  | [] => ['}']
  | (key, value) :: rest =>
    ',' :: (quote key ++ ':' :: (compactChars value ++ compactMembersTail rest))

end

/-- A line break and the indentation of a level. -/
def newline (level : Nat) : List Char := '\n' :: List.replicate (2 * level) ' '

mutual

/-- The indented text of a value that starts at the given level. -/
def prettyChars (level : Nat) : Json → List Char
  | .null => ['n', 'u', 'l', 'l']
  | .bool true => ['t', 'r', 'u', 'e']
  | .bool false => ['f', 'a', 'l', 's', 'e']
  | .number n => n.text
  | .string s => quote s
  | .array items => '[' :: prettyItems level items
  | .object members => '{' :: prettyMembers level members

def prettyItems (level : Nat) : List Json → List Char
  | [] => [']']
  | item :: rest =>
    newline (level + 1) ++ (prettyChars (level + 1) item ++ prettyItemsTail level rest)

def prettyItemsTail (level : Nat) : List Json → List Char
  | [] => newline level ++ [']']
  | item :: rest =>
    ',' :: (newline (level + 1) ++ (prettyChars (level + 1) item ++ prettyItemsTail level rest))

def prettyMembers (level : Nat) : List (String × Json) → List Char
  | [] => ['}']
  | (key, value) :: rest =>
    newline (level + 1) ++
      (quote key ++ ':' :: ' ' :: (prettyChars (level + 1) value ++ prettyMembersTail level rest))

def prettyMembersTail (level : Nat) : List (String × Json) → List Char
  | [] => newline level ++ ['}']
  | (key, value) :: rest =>
    ',' :: (newline (level + 1) ++
      (quote key ++ ':' :: ' ' :: (prettyChars (level + 1) value ++ prettyMembersTail level rest)))

end

def compact (value : Json) : String := String.ofList value.compactChars

def pretty (value : Json) : String := String.ofList (value.prettyChars 0)

end Mosaic.Json
