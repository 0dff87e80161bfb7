import Mosaic.Time.Timestamp

/-!
# Clock readings

A clock counts seconds from the start of the year 1970.
-/

namespace Mosaic.Time

/-- The date so many days after the first of March of the year zero. Years begin in
March here, so that the leap day is the last day of a year. -/
def Date.ofMarchDays? (days : Int) : Option Date :=
  let era := days / 146097
  let dayOfEra := days % 146097
  let yearOfEra := (dayOfEra - dayOfEra / 1460 + dayOfEra / 36524 - dayOfEra / 146096) / 365
  let dayOfYear := dayOfEra - (365 * yearOfEra + yearOfEra / 4 - yearOfEra / 100)
  let monthFromMarch := (5 * dayOfYear + 2) / 153
  let day := dayOfYear - (153 * monthFromMarch + 2) / 5 + 1
  let month := if monthFromMarch < 10 then monthFromMarch + 3 else monthFromMarch - 9
  let year := yearOfEra + era * 400 + (if month ≤ 2 then 1 else 0)
  Date.of? year month.toNat day.toNat

/-- The point in time that a clock shows; the start of its count if there is none. -/
def Timestamp.ofClock (seconds : Int) (nanos : Nat) : Timestamp :=
  let ofDay := (seconds % 86400).toNat
  match Date.ofMarchDays? (seconds / 86400 + 719468) with
  | some date => .ofFields date (ofDay / 3600) (ofDay / 60 % 60) (ofDay % 60) nanos
  | none => .epoch

end Mosaic.Time
