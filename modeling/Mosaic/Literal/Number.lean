import Mosaic.Json.Value
import Mosaic.Decimal.Reading

/-!
# Number literals

The number that a numeric literal denotes: decimal with fraction and exponent,
or with the prefix `0x`, `0o` or `0b` and an integer in that radix, with
underscores anywhere. Literals that begin with a zero and another digit denote
none, nor do those that are not finite.
-/

namespace Mosaic.Literal

/-- The value of a digit or letter in radices up to sixteen. -/
def digitValue? (radix : Nat) (c : Char) : Option Nat :=
  let value? :=
    if c.isDigit then some (c.toNat - '0'.toNat)
    else if 'a' ≤ c ∧ c ≤ 'f' then some (c.toNat - 'a'.toNat + 10)
    else none
  value?.filter (· < radix)

/-- The bound of the integers of 64 bits. -/
def wordLimit : Int := Nat.pow 2 63

/-- The integer that a signed numeral in a radix denotes, if it fits into 64 bits. -/
def readInteger? (radix : Nat) (text : List Char) : Option Int :=
  let (negative, digits) := Decimal.splitSign text
  if digits.isEmpty then none
  else
    (digits.mapM (digitValue? radix)).bind fun values =>
      let magnitude := values.foldl (fun n d => radix * n + d) 0
      let n : Int := if negative then -magnitude else magnitude
      if -wordLimit ≤ n ∧ n < wordLimit then some n else none

/-- The radix that the prefix of a literal announces, and the digits. -/
def splitRadix : List Char → Option (Nat × List Char)
  | '0' :: 'x' :: digits => some (16, digits)
  | '0' :: 'o' :: digits => some (8, digits)
  | '0' :: 'b' :: digits => some (2, digits)
  | _ => none

/-- A zero followed by a digit, as in the old octal literals. -/
def hasLeadingZero : List Char → Bool
  | '0' :: c :: _ => c.isDigit
  | _ => false

/-- The negation of a 64-bit integer; the least one stays as it is. -/
def negate (n : Int) : Int := if n = -wordLimit then n else -n

def signed (negative : Bool) (n : Int) : Json.Number := .int (if negative then negate n else n)

/-- The finite number that a decimal literal denotes. -/
def readDecimal? (negative : Bool) (text : List Char) : Option Json.Number :=
  (Decimal.readFloat text).bind fun x =>
    if Binary64.isFinite x then some (.float (if negative then -x else x)) else none

/-- The number denoted by a literal, negated if a minus sign stands before it. -/
def readNumber? (text : List Char) (negative : Bool) : Option Json.Number :=
  let lower := (text.filter (· ≠ '_')).map Char.toLower
  match splitRadix lower with
  | some (radix, digits) => (readInteger? radix digits).map (signed negative)
  | none =>
    if hasLeadingZero lower then none
    else
      let integral := !lower.contains '.' && !lower.contains 'e'
      match if integral then readInteger? 10 lower else none with
      | some n => some (signed negative n)
      | none => readDecimal? negative lower

end Mosaic.Literal
