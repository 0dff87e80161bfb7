import Mosaic.Json.Error
import Mosaic.Decimal.Reading

/-!
# Reading JSON

Readers take the text that is left and return what they read together with what
remains, or a fault. Nesting is limited: a reader of values is given the number
of arrays and objects that may still be opened, and recurses on it. The loops
over items and members are bounded by the number of characters that are left.

* `readString`, `readNumber`, `readItems`, `readMembers`: the parts of the grammar.
* `readValue`: a value, `Json.parse`: a whole text.
-/

namespace Mosaic.Json

/-- The four blanks that may stand between tokens. -/
def isBlank (c : Char) : Bool := c = ' ' || c = '\n' || c = '\t' || c = '\r'

/-- The text from its first character on that is no blank. -/
def skipBlanks (text : List Char) : List Char := text.dropWhile isBlank

/-- A syntax fault `ahead` bytes into the text that is left. -/
def fault {α : Type} (cause : SyntaxCause) (rest : List Char) (ahead : Nat) : Except Fault α :=
  .error { cause := .malformed cause, rest, ahead }

/-! ## Strings -/

/-- The number of bytes that the text takes up. -/
def byteLength (text : List Char) : Nat := text.foldr (fun c n => c.utf8Size + n) 0

/-- The value of a hexadecimal digit of either case. -/
def hexValue? (c : Char) : Option Nat :=
  if c.isDigit then some (c.toNat - '0'.toNat)
  else if 'a' ≤ c ∧ c ≤ 'f' then some (c.toNat - 'a'.toNat + 10)
  else if 'A' ≤ c ∧ c ≤ 'F' then some (c.toNat - 'A'.toNat + 10)
  else none

/-- The number written by four hexadecimal digits. -/
def hexWord? (a b c d : Char) : Option Nat := do
  some (((← hexValue? a) * 16 + (← hexValue? b)) * 256 + (← hexValue? c) * 16 + (← hexValue? d))

/-- The first halves of surrogate pairs. -/
def isHighSurrogate (n : Nat) : Bool := 0xd800 ≤ n && n < 0xdc00

/-- The second halves of surrogate pairs. -/
def isLowSurrogate (n : Nat) : Bool := 0xdc00 ≤ n && n < 0xe000

/-- The code point of a surrogate pair. -/
def pairCode (high low : Nat) : Nat := 0x10000 + (high - 0xd800) * 0x400 + (low - 0xdc00)

/-- What the letter after a backslash stands for, unless it begins a code. -/
def simpleEscape? (c : Char) : Option Char :=
  if c = '"' then some '"'
  else if c = '\\' then some '\\'
  else if c = '/' then some '/'
  else if c = 'b' then some '\x08'
  else if c = 'f' then some '\x0c'
  else if c = 'n' then some '\n'
  else if c = 'r' then some '\r'
  else if c = 't' then some '\t'
  else none

/-- Four hexadecimal digits were expected at the start of `rest`. -/
def badHex {α : Type} (rest : List Char) : Except Fault α :=
  if byteLength rest < 4 then fault .endOfString [] 0 else fault .invalidEscape rest 4

/-- The character before what the rest of a string holds. -/
def pushChar (c : Char) (tail : Except Fault (List Char × List Char)) :
    Except Fault (List Char × List Char) :=
  tail.map fun (chars, rest) => (c :: chars, rest)

/-- Reads a string whose opening quote has been consumed. Surrogate codes must
come in pairs. -/
def readString : List Char → Except Fault (List Char × List Char)
  | [] => fault .endOfString [] 0
  | '"' :: rest => .ok ([], rest)
  | '\\' :: [] => fault .endOfString [] 0
  | '\\' :: 'u' :: rest =>
    match rest with
    | a :: b :: c :: d :: tail =>
      match hexWord? a b c d with
      | none => badHex rest
      | some n =>
        if isLowSurrogate n then fault .loneSurrogate tail 0
        else if isHighSurrogate n then
          match tail with
          | [] => fault .endOfString [] 0
          | '\\' :: [] => fault .endOfString [] 0
          | '\\' :: 'u' :: tail =>
            match tail with
            | e :: f :: g :: h :: tail' =>
              match hexWord? e f g h with
              | none => badHex tail
              | some m =>
                if isLowSurrogate m then pushChar (Char.ofNat (pairCode n m)) (readString tail')
                else fault .loneSurrogate tail' 0
            | short => badHex short
          | '\\' :: other => fault .endOfSurrogatePair other 1
          | other => fault .endOfSurrogatePair other 1
        else pushChar (Char.ofNat n) (readString tail)
    | short => badHex short
  | '\\' :: c :: rest =>
    match simpleEscape? c with
    | some e => pushChar e (readString rest)
    | none => fault .invalidEscape (c :: rest) 1
  | c :: rest =>
    if c.toNat < 0x20 then fault .controlCharacter (c :: rest) 1
    else pushChar c (readString rest)

/-! ## Numbers

A significand is collected in 64 bits; the digits that do not fit only move the
decimal point. The number is then the significand scaled by one floating-point
operation. -/

/-- Appends digits to a number as long as the result stays below `limit`; returns
the number and the digits that are left. -/
def absorb (limit : Nat) (n : Nat) : List Char → Nat × List Char
  | [] => (n, [])
  | c :: rest =>
    let next := 10 * n + (c.toNat - '0'.toNat)
    if next < limit then absorb limit next rest else (n, c :: rest)

/-- A power of ten, as the closest binary64 number. -/
def tenPower (n : Nat) : Float := Binary64.ofNat (Nat.pow 10 n)

/-- `significand * 10 ^ exponent`, or `none` beyond the finite range. -/
def scale (significand : Nat) (exponent : Int) : Option Float :=
  let f := Binary64.ofNat significand
  let e := exponent.natAbs
  if 0 ≤ exponent then
    if e ≤ 308 then
      let product := f * tenPower e
      if Binary64.isFinite product then some product else none
    else if significand = 0 then some f
    else none
  else if e ≤ 308 then some (f / tenPower e)
  else
    let steps := (e - 1) / 308
    -- Three divisions by `10 ^ 308` already leave zero.
    some (Nat.repeat (· / tenPower 308) (min steps 3) f / tenPower (e - 308 * steps))

/-- The number with its sign, or a fault where it is beyond the finite range. -/
def scaled (negative : Bool) (significand : Nat) (exponent : Int) (rest : List Char) :
    Except Fault (Number × List Char) :=
  match scale significand exponent with
  | some f => .ok (.float (if negative then -f else f), rest)
  | none => fault .numberOutOfRange rest 0

/-- The exponent of a number, after its letter. -/
def readExponent (negative : Bool) (significand : Nat) (exponent : Int) (text : List Char) :
    Except Fault (Number × List Char) :=
  let (down, rest) := Decimal.splitSign text
  match rest with
  | [] => fault .endOfValue [] 0
  | c :: _ =>
    if !c.isDigit then fault .invalidNumber rest 1
    else
      let digits := rest.takeWhile Char.isDigit
      let after := rest.dropWhile Char.isDigit
      let (e, left) := absorb (Nat.pow 2 31) 0 digits
      if left.isEmpty then
        scaled negative significand (if down then exponent - e else exponent + e) after
      else if significand ≠ 0 ∧ !down then fault .numberOutOfRange (left.drop 1 ++ after) 0
      else .ok (.float (if negative then -0.0 else 0.0), after)

/-- What follows the integer part of a number: a significand and the number of
integer digits that did not fit into it. -/
def readAfterWhole (negative : Bool) (significand extra : Nat) (text : List Char) :
    Except Fault (Number × List Char) :=
  match text with
  | '.' :: rest =>
    let digits := rest.takeWhile Char.isDigit
    let after := rest.dropWhile Char.isDigit
    if digits.isEmpty then
      fault (if rest.isEmpty then .endOfValue else .invalidNumber) rest 1
    else
      let (significand, left) := absorb (Nat.pow 2 64) significand digits
      let exponent := (extra : Int) - (digits.length - left.length : Nat)
      match after with
      | 'e' :: rest | 'E' :: rest => readExponent negative significand exponent rest
      | _ => scaled negative significand exponent after
  | 'e' :: rest | 'E' :: rest => readExponent negative significand extra rest
  | _ =>
    if extra ≠ 0 then scaled negative significand extra text
    else if !negative then .ok (.int significand, text)
    else if 0 < significand ∧ significand ≤ Nat.pow 2 63 then .ok (.int (-significand), text)
    else .ok (.float (-Binary64.ofNat significand), text)

/-- Reads a number without its minus sign. -/
def readNumber (negative : Bool) (text : List Char) : Except Fault (Number × List Char) :=
  match text with
  | [] => fault .endOfValue [] 0
  | c :: rest =>
    if c = '0' then
      if (rest.takeWhile Char.isDigit).isEmpty then readAfterWhole negative 0 0 rest
      else fault .invalidNumber rest 1
    else if c.isDigit then
      let (significand, left) := absorb (Nat.pow 2 64) 0 (text.takeWhile Char.isDigit)
      readAfterWhole negative significand left.length (text.dropWhile Char.isDigit)
    else fault .invalidNumber text 1

/-! ## Values -/

/-- The rest of a word whose first letter has been read. -/
def readWord : List Char → List Char → Except Fault (List Char)
  | [], text => .ok text
  | _ :: _, [] => fault .endOfValue [] 0
  | e :: expected, c :: rest =>
    if c = e then readWord expected rest else fault .expectedWord (c :: rest) 1

/-- The colon between a key and its value. -/
def readColon (text : List Char) : Except Fault (List Char) :=
  match skipBlanks text with
  | [] => fault .endOfObject [] 1
  | ':' :: rest => .ok rest
  | other => fault .expectedColon other 1

/-- What stands between two items of an array, and after the last one. The result
is the text of the next item, or the text after the closing bracket. -/
def afterItem (text : List Char) : Except Fault (Bool × List Char) :=
  match skipBlanks text with
  | [] => fault .endOfList [] 1
  | ']' :: rest => .ok (false, rest)
  | ',' :: rest =>
    match skipBlanks rest with
    | [] => fault .endOfValue [] 1
    | ']' :: rest => fault .trailingComma (']' :: rest) 1
    | next => .ok (true, next)
  | other => fault .expectedListEnd other 1

section Containers

variable {α σ : Type}

/-- The items of an array from the first one on. -/
def readItemsFrom (item : List Char → Except Fault (α × List Char)) :
    (fuel : Nat) → List Char → Except Fault (List α × List Char)
  | 0, text => fault .endOfList text 1
  | fuel + 1, text => do
    let (first, rest) ← item text
    match ← afterItem rest with
    | (false, rest) => .ok ([first], rest)
    | (true, rest) =>
      let (others, rest) ← readItemsFrom item fuel rest
      .ok (first :: others, rest)

/-- The items of an array whose opening bracket has been consumed. -/
def readItems (item : List Char → Except Fault (α × List Char)) (text : List Char) :
    Except Fault (List α × List Char) :=
  match skipBlanks text with
  | [] => fault .endOfList [] 1
  | ']' :: rest => .ok ([], rest)
  | first => readItemsFrom item first.length first

/-- What stands before a key after the first one, and after the last member. -/
def afterMember (text : List Char) : Except Fault (Bool × List Char) :=
  match skipBlanks text with
  | [] => fault .endOfObject [] 1
  | '}' :: rest => .ok (false, rest)
  | ',' :: rest =>
    match skipBlanks rest with
    | [] => fault .endOfValue [] 1
    | '}' :: rest => fault .trailingComma ('}' :: rest) 1
    | next => .ok (true, next)
  | other => fault .expectedObjectEnd other 1

/-- The key of a member, which has to be a string. -/
def readKey (text : List Char) : Except Fault (String × List Char) :=
  match text with
  | '"' :: rest => (readString rest).map fun (chars, rest) => (String.ofList chars, rest)
  | other => fault .keyNotString other 1

/-- The members of an object from the first key on. Each is given to `member`
with what has been gathered so far, its key and the text after the key. -/
def readMembersFrom (member : σ → String → List Char → Except Fault (σ × List Char)) :
    (fuel : Nat) → σ → List Char → Except Fault (σ × List Char)
  | 0, _, text => fault .endOfObject text 1
  | fuel + 1, gathered, text => do
    let (key, rest) ← readKey text
    let (gathered, rest) ← member gathered key rest
    match ← afterMember rest with
    | (false, rest) => .ok (gathered, rest)
    | (true, rest) => readMembersFrom member fuel gathered rest

/-- The members of an object whose opening brace has been consumed. -/
def readMembers (member : σ → String → List Char → Except Fault (σ × List Char)) (start : σ)
    (text : List Char) : Except Fault (σ × List Char) :=
  match skipBlanks text with
  | [] => fault .endOfObject [] 1
  | '}' :: rest => .ok (start, rest)
  | first => readMembersFrom member first.length start first

end Containers

/-- A member of a plain object: the last of equal keys gives the value. -/
def readMember (value : List Char → Except Fault (Json × List Char))
    (members : List (String × Json)) (key : String) (text : List Char) :
    Except Fault (List (String × Json) × List Char) := do
  let (v, rest) ← value (← readColon text)
  .ok (putEntry key v members, rest)

/-- Reads a value. `nested` reads the values inside arrays and objects; without it
neither may be opened. -/
def readValueWith (nested : Option (List Char → Except Fault (Json × List Char)))
    (text : List Char) : Except Fault (Json × List Char) :=
  match skipBlanks text with
  | [] => fault .endOfValue [] 1
  | c :: rest =>
    if c = 'n' then (readWord ['u', 'l', 'l'] rest).map (Json.null, ·)
    else if c = 't' then (readWord ['r', 'u', 'e'] rest).map (Json.bool true, ·)
    else if c = 'f' then (readWord ['a', 'l', 's', 'e'] rest).map (Json.bool false, ·)
    else if c = '"' then
      (readString rest).map fun (chars, rest) => (.string (String.ofList chars), rest)
    else if c = '-' then (readNumber true rest).map fun (n, rest) => (.number n, rest)
    else if c.isDigit then (readNumber false (c :: rest)).map fun (n, rest) => (.number n, rest)
    else if c = '[' then
      match nested with
      | none => fault .tooDeep (c :: rest) 1
      | some value => (readItems value rest).map fun (items, rest) => (.array items, rest)
    else if c = '{' then
      match nested with
      | none => fault .tooDeep (c :: rest) 1
      | some value =>
        (readMembers (readMember value) [] rest).map fun (members, rest) => (.object members, rest)
    else fault .expectedValue (c :: rest) 1

/-- Reads a value in which at most `depth` arrays and objects are nested. -/
def readValue : (depth : Nat) → List Char → Except Fault (Json × List Char)
  | 0 => readValueWith none
  | depth + 1 => readValueWith (some (readValue depth))

/-- The number of arrays and objects that may be nested in a text. -/
def nestingLimit : Nat := 127

/-- Reads a whole text with the given reader; only blanks may follow. -/
def parseWith {α : Type} (read : List Char → Except Fault (α × List Char)) (text : String) :
    Except Error α :=
  let whole : Except Fault α := do
    let (value, rest) ← read text.toList
    match skipBlanks rest with
    | [] => .ok value
    | other => fault .trailingCharacters other 1
  whole.mapError (·.locate text.toList)

/-- The value that a whole text stands for, with nothing but blanks around it. -/
def parse (text : String) : Except Error Json := parseWith (readValue nestingLimit) text

end Mosaic.Json
