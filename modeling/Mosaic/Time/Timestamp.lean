import Mosaic.Time.Error
import Mosaic.Text.Blank

/-!
# Points in time

Dates of the Gregorian calendar and points in time in UTC, to the nanosecond.

* `Date`, `Timestamp`: valid by construction.
* `Timestamp.parse`: reads a date, a time and an offset from UTC. Blanks may stand
  between the parts and signs may precede the year.
* `Timestamp.render`: the canonical text, with as many groups of three fraction
  digits as are needed.
-/

namespace Mosaic.Time

/-- Every fourth year, but of the full centuries only every fourth one. -/
def isLeapYear (year : Int) : Bool :=
  year % 4 = 0 && (year % 100 ≠ 0 || year % 400 = 0)

/-- The number of days in a month, for months from 1 to 12. -/
def daysInMonth (year : Int) (month : Nat) : Nat :=
  if month = 2 then if isLeapYear year then 29 else 28
  else if month = 4 ∨ month = 6 ∨ month = 9 ∨ month = 11 then 30
  else 31

/-- The years for which dates are kept. -/
def IsYear (year : Int) : Prop := -262143 ≤ year ∧ year ≤ 262142

instance (year : Int) : Decidable (IsYear year) := inferInstanceAs (Decidable (_ ∧ _))

/-- Whether the calendar has the given day. -/
def IsDate (year : Int) (month day : Nat) : Prop :=
  IsYear year ∧ 1 ≤ month ∧ month ≤ 12 ∧ 1 ≤ day ∧ day ≤ daysInMonth year month

instance (year : Int) (month day : Nat) : Decidable (IsDate year month day) :=
  inferInstanceAs (Decidable (_ ∧ _))

/-- A day of the calendar. -/
structure Date where
  year : Int
  month : Nat
  day : Nat
  valid : IsDate year month day
  deriving DecidableEq

namespace Date

/-- The day with the given numbers, if the calendar has it. -/
def of? (year : Int) (month day : Nat) : Option Date :=
  if h : IsDate year month day then some ⟨year, month, day, h⟩ else none

/-- The day after; there is none after the last of the last year. -/
def next? (d : Date) : Option Date :=
  of? d.year d.month (d.day + 1) <|> of? d.year (d.month + 1) 1 <|> of? (d.year + 1) 1 1

/-- The day before; there is none before the first of the first year. -/
def previous? (d : Date) : Option Date :=
  if 1 < d.day then of? d.year d.month (d.day - 1)
  else if 1 < d.month then of? d.year (d.month - 1) (daysInMonth d.year (d.month - 1))
  else of? (d.year - 1) 12 31

end Date

/-- A point in time in UTC. Second 60 is a leap second. -/
structure Timestamp where
  date : Date
  hour : Fin 24
  minute : Fin 60
  second : Fin 61
  nano : Fin 1000000000
  deriving DecidableEq

namespace Timestamp

/-- Midnight at the start of the first of January 1970. -/
def epoch : Timestamp := ⟨⟨1970, 1, 1, by decide⟩, 0, 0, 0, 0⟩

instance : Inhabited Timestamp := ⟨epoch⟩

/-- The point in time with the given fields, each of them in its range. -/
def ofFields (date : Date) (hour minute second nano : Nat) : Timestamp where
  date
  hour := Fin.ofNat 24 hour
  minute := Fin.ofNat 60 minute
  second := Fin.ofNat 61 second
  nano := Fin.ofNat 1000000000 nano

/-! ## Writing -/

/-- A number with leading zeros up to the given width. -/
def padded (width n : Nat) : List Char :=
  let digits := Nat.toDigits 10 n
  List.replicate (width - digits.length) '0' ++ digits

/-- The year with four digits at least, and with a sign if it is negative or has more of them. -/
def yearText (year : Int) : List Char :=
  if year < 0 then '-' :: padded 4 year.natAbs
  else if year ≤ 9999 then padded 4 year.natAbs
  else '+' :: padded 4 year.natAbs

/-- Nothing for a whole second, else three, six or nine digits. -/
def fractionText (nano : Nat) : List Char :=
  if nano = 0 then []
  else if nano % 1000000 = 0 then '.' :: padded 3 (nano / 1000000)
  else if nano % 1000 = 0 then '.' :: padded 6 (nano / 1000)
  else '.' :: padded 9 nano

/-- The canonical text in UTC. -/
def render (t : Timestamp) : List Char :=
  yearText t.date.year ++ '-' :: (padded 2 t.date.month ++ '-' :: (padded 2 t.date.day ++
    'T' :: (padded 2 t.hour ++ ':' :: (padded 2 t.minute ++ ':' :: (padded 2 t.second ++
    (fractionText t.nano ++ ['Z']))))))

/-! ## Reading

Each reader takes the text that is left and returns what remains after its part.
-/

/-- The number that decimal digits stand for. -/
def digitsValue (digits : List Char) : Nat := Nat.ofDigitChars 10 digits 0

/-- A natural number of at most `width` digits, if a width is given. -/
def readNumber (width : Option Nat) (text : List Char) : Except Error (Nat × List Char) :=
  match text with
  | [] => .error .tooShort
  | _ =>
    let candidates := match width with
      | some w => text.take w
      | none => text
    let digits := candidates.takeWhile Char.isDigit
    if digits.isEmpty then .error .invalid
    else if Nat.pow 2 63 ≤ digitsValue digits then .error .outOfRange
    else .ok (digitsValue digits, text.drop digits.length)

/-- A number of up to two digits that must lie in the given range. -/
def readField (least greatest : Nat) (text : List Char) : Except Error (Nat × List Char) := do
  let (n, rest) ← readNumber (some 2) (Text.trimStart text)
  if least ≤ n ∧ n ≤ greatest then .ok (n, rest) else .error .outOfRange

/-- The bound of the years that are read. -/
def yearLimit : Int := Nat.pow 2 31

/-- A year: four digits at most, or any number of them after a sign. -/
def readYear (text : List Char) : Except Error (Int × List Char) := do
  let (year, rest) ← match Text.trimStart text with
    | '-' :: digits => (readNumber none digits).map fun (n, rest) => (-(n : Int), rest)
    | '+' :: digits => (readNumber none digits).map fun (n, rest) => ((n : Int), rest)
    | digits => (readNumber (some 4) digits).map fun (n, rest) => ((n : Int), rest)
  if -yearLimit ≤ year ∧ year < yearLimit then .ok (year, rest) else .error .outOfRange

/-- Reads one character that must stand next, after blanks. -/
def expect (c : Char) (text : List Char) : Except Error (List Char) :=
  match Text.trimStart text with
  | [] => .error .tooShort
  | d :: rest => if d = c then .ok rest else .error .invalid

/-- The fraction of a second in nanoseconds; digits after the ninth are dropped. -/
def readFraction (text : List Char) : Except Error (Nat × List Char) :=
  match text with
  | '.' :: digits => do
    let (n, rest) ← readNumber (some 9) digits
    let used := digits.length - rest.length
    .ok (n * Nat.pow 10 (9 - used), rest.dropWhile Char.isDigit)
  | _ => .ok (0, text)

/-- The two hour digits of an offset. -/
def readOffsetHours (text : List Char) : Except Error (Nat × List Char) :=
  match text with
  | a :: b :: rest =>
    if a.isDigit ∧ b.isDigit then .ok (digitsValue [a, b], rest) else .error .invalid
  | [c] => if c.utf8Size < 2 then .error .tooShort else .error .invalid
  | [] => .error .tooShort

/-- The two minute digits of an offset. -/
def readOffsetMinutes (text : List Char) : Except Error (Nat × List Char) := do
  let (n, rest) ← readOffsetHours text
  if n < 60 then .ok (n, rest) else .error .outOfRange

/-- An offset from UTC in minutes. -/
def readOffset (text : List Char) : Except Error (Int × List Char) :=
  let magnitude (digits : List Char) : Except Error (Int × List Char) := do
    let (hours, rest) ← readOffsetHours digits
    let separated := rest.dropWhile fun c => c = ':' || Text.isBlank c
    let (minutes, rest) ← readOffsetMinutes separated
    .ok ((hours : Int) * 60 + minutes, rest)
  match text with
  | [] => .error .tooShort
  | 'Z' :: rest | 'z' :: rest => .ok (0, rest)
  | '+' :: digits => magnitude digits
  | '-' :: digits | '\u2212' :: digits => do
    let (n, rest) ← magnitude digits
    .ok (-n, rest)
  | a :: b :: c :: rest =>
    if [a, b, c].map Char.toLower = ['u', 't', 'c'] then .ok (0, rest) else .error .invalid
  | _ => .error .invalid

/-- The point in time at which a clock `offset` minutes ahead of UTC shows the
given date and time. -/
def ofLocal (date : Date) (hour minute second nano : Nat) (offset : Int) :
    Except Error Timestamp :=
  let minutes := (hour : Int) * 60 + minute - offset
  let date? :=
    if minutes < 0 then date.previous? else if 1440 ≤ minutes then date.next? else some date
  let ofDay := (minutes % 1440).toNat
  match date? with
  | none => .error .impossible
  | some date =>
    .ok (ofFields date (ofDay / 60) (ofDay % 60) second nano)

/-- The separator between a date and a time. -/
def readSeparator : List Char → Except Error (List Char)
  | [] => .error .tooShort
  | c :: rest => if c = 'T' ∨ c = 't' ∨ c = ' ' then .ok rest else .error .invalid

/-- Reads a whole text as a point in time. -/
def parse (text : List Char) : Except Error Timestamp := do
  let (year, rest) ← readYear text
  let (month, rest) ← readField 1 12 (← expect '-' rest)
  let (day, rest) ← readField 1 31 (← expect '-' rest)
  let (hour, rest) ← readField 0 23 (← readSeparator rest)
  let (minute, rest) ← readField 0 59 (← expect ':' rest)
  let (second, rest) ← readField 0 60 (← expect ':' rest)
  let (nano, rest) ← readFraction rest
  let (offset, rest) ← readOffset (Text.trimStart rest)
  if !(Text.trimStart rest).isEmpty then .error .tooLong
  else
    match Date.of? year month day with
    | none => .error .outOfRange
    | some date =>
      if offset.natAbs < 1440 then
        ofLocal date hour minute second nano offset
      else .error .outOfRange

end Timestamp

end Mosaic.Time
