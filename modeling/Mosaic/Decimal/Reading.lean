import Mosaic.Decimal.Binary64

/-!
# Reading decimal text

A decimal numeral with an optional sign, fraction and exponent denotes a
fraction, and is read as the binary64 number nearest to it. The words for
infinity and not-a-number are numerals as well.
-/

namespace Mosaic.Decimal

/-- The natural number that a list of decimal digits denotes. -/
def natOfDigits (digits : List Char) : Nat := Nat.ofDigitChars 10 digits 0

/-- The number nearest to `mantissa * 10 ^ exponent`. Magnitudes beyond `10 ^ 310`
or below `10 ^ -330` are decided by the count of digits alone. -/
def nearestScaled (negative : Bool) (mantissa : Nat) (exponent : Int) : Float :=
  let magnitude := exponent + (Nat.toDigits 10 mantissa).length
  if mantissa = 0 ∨ magnitude < -330 then Binary64.nearest negative 0 1
  else if 310 < magnitude then Binary64.nearest negative (Nat.pow 10 310) 1
  else if 0 ≤ exponent then Binary64.nearest negative (mantissa * Nat.pow 10 exponent.toNat) 1
  else Binary64.nearest negative mantissa (Nat.pow 10 (-exponent).toNat)

/-- A sign in front of a numeral, and the rest. -/
def splitSign : List Char → Bool × List Char
  | '-' :: rest => (true, rest)
  | '+' :: rest => (false, rest)
  | text => (false, text)

/-- The exponent part of a numeral, `none` if it is malformed. -/
def readExponent : List Char → Option Int
  | [] => some 0
  | c :: rest =>
    if c = 'e' ∨ c = 'E' then
      let (negative, digits) := splitSign rest
      if digits.isEmpty || !digits.all Char.isDigit then none
      else
        let n := natOfDigits digits
        some (if negative then -n else n)
    else none

def lower (text : List Char) : String := String.ofList (text.map Char.toLower)

def infinity (negative : Bool) : Float := Binary64.nearest negative (Nat.pow 2 1100) 1

/-- Reads a whole text as a number. At least one digit must stand before the
exponent, on either side of the point. -/
def readFloat (text : List Char) : Option Float :=
  let (negative, body) := splitSign text
  if lower body = "inf" ∨ lower body = "infinity" then some (infinity negative)
  else if lower body = "nan" then some (0.0 / 0.0)
  else
    let whole := body.takeWhile Char.isDigit
    let afterWhole := body.dropWhile Char.isDigit
    let (fraction, afterFraction) := match afterWhole with
      | '.' :: rest => (rest.takeWhile Char.isDigit, rest.dropWhile Char.isDigit)
      | rest => ([], rest)
    if whole.isEmpty && fraction.isEmpty then none
    else
      (readExponent afterFraction).map fun e =>
        nearestScaled negative (natOfDigits (whole ++ fraction)) (e - fraction.length)

end Mosaic.Decimal
