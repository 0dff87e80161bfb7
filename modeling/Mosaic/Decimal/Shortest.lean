import Mosaic.Decimal.Binary64

/-!
# Shortest decimal text of a number

A binary64 number is written with the fewest decimal digits that read back as
the same number, and of the candidates with that many digits with the one
closest to it. Where the digits go relative to the decimal point is a matter of
the format and described by a `Layout`.

* `Digits.shortest`: the digits and the position of the point.
* `Layout.render`: the text.
-/

namespace Mosaic.Decimal

open Binary64

/-- The positive number `0.d₁d₂d₃… * 10 ^ point`; `digits` has no trailing zero. -/
structure Digits where
  digits : List Char
  point : Int

/-- The real numbers that round to a given number, and a grid of powers of ten,
in a common integer unit. -/
structure Grid where
  low : Nat
  value : Nat
  high : Nat
  /-- Whether the ends of the interval round to the number as well. -/
  closed : Bool
  step : Nat

/-- The grid `10 ^ k` beside the number `m * 2 ^ q`. The gap below a power of two
is half the gap above it. -/
def Grid.at (m : Nat) (q k : Int) : Grid :=
  let unit := Nat.pow 2 (q - 2).toNat * Nat.pow 10 (-k).toNat
  let gapBelow := if m = leadingBit ∧ leastExponent < q then 1 else 2
  { low := (4 * m - gapBelow) * unit
    value := 4 * m * unit
    high := (4 * m + 2) * unit
    closed := m % 2 = 0
    step := Nat.pow 10 k.toNat * Nat.pow 2 (2 - q).toNat }

def Grid.holds (g : Grid) (n : Nat) : Bool :=
  let x := n * g.step
  if g.closed then g.low ≤ x && x ≤ g.high else g.low < x && x < g.high

/-- The grid point that reads back as the number: the nearer of the two
neighbours, and of two equally near ones the even one. -/
def Grid.pick? (g : Grid) : Option Nat :=
  let below := g.value / g.step
  let above := below + 1
  match g.holds below, g.holds above with
  | false, false => none
  | true, false => some below
  | false, true => some above
  | true, true =>
    let left := g.value - below * g.step
    let right := above * g.step - g.value
    if left < right || left = right && below % 2 = 0 then some below else some above

/-- Whether `10 ^ e` is at most `m * 2 ^ q`. -/
def powerAtMost (m : Nat) (q e : Int) : Bool :=
  Nat.pow 10 e.toNat * Nat.pow 2 (-q).toNat ≤ m * Nat.pow 2 q.toNat * Nat.pow 10 (-e).toNat

/-- The number of digits before the decimal point of `m * 2 ^ q`; zero or
negative for numbers below one tenth. -/
def pointOf (m : Nat) (q : Int) : Int :=
  let guess := ((q + m.log2) * 30103).fdiv 100000
  if powerAtMost m q (guess + 1) then guess + 2
  else if powerAtMost m q guess then guess + 1
  else guess

def stripZeros (digits : List Char) : List Char :=
  (digits.reverse.dropWhile (· = '0')).reverse

/-- The digits of a positive finite number: the coarsest of the grids with 1 to
17 digits that has a point reading back as the number. -/
def Digits.shortest (x : Float) : Digits :=
  let m := significand x
  let q := exponent x
  let point := pointOf m q
  let pick := (List.range 17).findSome? fun (i : Nat) =>
    let k := point - ((i : Int) + 1)
    (Grid.at m q k).pick?.map fun n => (n, k)
  let (n, k) := pick.getD (m, 0)
  let digits := Nat.toDigits 10 n
  { digits := stripZeros digits, point := digits.length + k }

/-- How the digits of a number are laid out. The point stands inside or beside
the digits as long as its position lies in `leastPoint … greatestPoint`; beyond
that an exponent is written. -/
structure Layout where
  leastPoint : Int
  greatestPoint : Int
  /-- What precedes the digits of a positive exponent. -/
  positiveExponent : String

namespace Layout

def zeros (n : Nat) : List Char := List.replicate n '0'

def positional (d : Digits) : List Char :=
  if d.point ≤ 0 then '0' :: '.' :: (zeros (-d.point).toNat ++ d.digits)
  else
    let n := d.point.toNat
    if d.digits.length ≤ n then d.digits ++ zeros (n - d.digits.length) ++ ['.', '0']
    else d.digits.take n ++ '.' :: d.digits.drop n

def scientific (l : Layout) (d : Digits) : List Char :=
  let e := d.point - 1
  let mantissa := match d.digits with
    | first :: second :: rest => first :: '.' :: second :: rest
    | few => few
  let sign := if e < 0 then ['-'] else l.positiveExponent.toList
  mantissa ++ 'e' :: (sign ++ Nat.toDigits 10 e.natAbs)

/-- The text of a finite number. Zero keeps its sign. -/
def render (l : Layout) (x : Float) : String :=
  let sign := if isNegative x then ['-'] else []
  let magnitude :=
    if significand x = 0 then ['0', '.', '0']
    else
      let d := Digits.shortest x
      if l.leastPoint ≤ d.point ∧ d.point ≤ l.greatestPoint then positional d
      else l.scientific d
  String.ofList (sign ++ magnitude)

end Layout

end Mosaic.Decimal
