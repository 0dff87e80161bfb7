/-!
# Binary64 numbers, exactly

A finite `Float` is a natural number times a power of two, up to sign. This
module takes such a number apart and finds the one nearest to a fraction, both
in exact arithmetic on `Nat`.

* `significand`, `exponent`: the magnitude of `x` is `significand x * 2 ^ exponent x`.
* `nearest`: the closest number to a fraction; of two equally close ones the
  one with the even significand, and infinity beyond the finite range.
-/

namespace Mosaic.Binary64

/-- The number of bits after the leading one of a normal number. -/
def fractionBits : Nat := 52

/-- The leading bit of the significand of a normal number. -/
def leadingBit : Nat := Nat.pow 2 fractionBits

/-- The exponent of the smallest positive number. -/
def leastExponent : Int := -1074

def biasedExponent (x : Float) : Nat := x.toBits.toNat / leadingBit % Nat.pow 2 11

def fraction (x : Float) : Nat := x.toBits.toNat % leadingBit

def isNegative (x : Float) : Bool := Nat.pow 2 63 ≤ x.toBits.toNat

def isFinite (x : Float) : Bool := biasedExponent x < 2047

def significand (x : Float) : Nat :=
  if biasedExponent x = 0 then fraction x else fraction x + leadingBit

def exponent (x : Float) : Int :=
  if biasedExponent x = 0 then leastExponent else biasedExponent x - 1075

/-- The integer nearest to `num / den`, a half going to the even neighbour. -/
def roundHalfEven (num den : Nat) : Nat :=
  let quotient := num / den
  let twice := 2 * (num % den)
  if twice < den then quotient
  else if twice = den ∧ quotient % 2 = 0 then quotient
  else quotient + 1

/-- `num / den / 2 ^ e` as a numerator and a denominator. -/
def scaleDown (num den : Nat) (e : Int) : Nat × Nat :=
  if 0 ≤ e then (num, den * Nat.pow 2 e.toNat) else (num * Nat.pow 2 (-e).toNat, den)

/-- The exponent at which `num / den` has at most 53 integer bits, and exactly
53 unless it is subnormal. -/
def targetExponent (num den : Nat) : Int :=
  let guess := max ((num.log2 : Int) - den.log2 - 53) leastExponent
  let (n, d) := scaleDown num den guess
  if n / d < Nat.pow 2 53 then guess else guess + 1

/-- The number closest to the fraction `num / den` with the given sign. -/
def nearest (negative : Bool) (num den : Nat) : Float :=
  let sign := if negative then Nat.pow 2 63 else 0
  if num = 0 then Float.ofBits (UInt64.ofNat sign)
  else
    let e := targetExponent num den
    let (n, d) := scaleDown num den e
    let m := roundHalfEven n d
    -- A significand that rounds up to `2 ^ 53` carries into the exponent field.
    let bits := if m < leadingBit then m else (e + 1075).toNat * leadingBit + (m - leadingBit)
    Float.ofBits (UInt64.ofNat (sign + min bits (2047 * leadingBit)))

/-- The number closest to a natural number. -/
def ofNat (n : Nat) : Float := nearest false n 1

end Mosaic.Binary64
