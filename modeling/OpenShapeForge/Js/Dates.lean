import OpenShapeForge.Js.Value
import OpenShapeForge.Js.Whole
import OpenShapeForge.Library.Calendar

/-! Dates as ECMAScript computes them. A time is counted in milliseconds from the first instant of
1970 on, in days of one length, and lies at most 100 million days from there. -/

namespace OpenShapeForge.Js

/-- `Date.UTC` with all its arguments, the parts of a time in UTC, and how a time is written. -/
class JsDates (N : Type) where
  dateUTC (year month day hours minutes seconds milliseconds : N) : N
  getUTCFullYear : N → N
  getUTCMonth : N → N
  getUTCDate : N → N
  getUTCDay : N → N
  getUTCHours : N → N
  getUTCMinutes : N → N
  getUTCSeconds : N → N
  getUTCMilliseconds : N → N
  toISOString : N → Text

namespace Dates
open Library

def msPerDay : Int := 86400000

def msPerHour : Int := 3600000

def msPerMinute : Int := 60000

def msPerSecond : Int := 1000

def day (time : Int) : Int := time / msPerDay

def timeWithinDay (time : Int) : Int := time % msPerDay

def timeClip (time : Int) : Option Int := if time.natAbs ≤ 8640000000000000 then some time else none

def makeTime (hours minutes seconds milliseconds : Int) : Int :=
  hours * msPerHour + minutes * msPerMinute + seconds * msPerSecond + milliseconds

def makeDay (year month date : Int) : Int := Calendar.monthFirst (year * 12 + month) + date - 1

def makeDate (day time : Int) : Int := day * msPerDay + time

/-- The years 0 to 99 stand for those of the twentieth century. -/
def makeFullYear (year : Int) : Int := if 0 ≤ year ∧ year ≤ 99 then 1900 + year else year

def utc (year month date hours minutes seconds milliseconds : Int) : Option Int :=
  timeClip (makeDate (makeDay (makeFullYear year) month date) (makeTime hours minutes seconds milliseconds))

def yearFromTime (time : Int) : Int := Calendar.yearOf (day time)

def monthFromTime (time : Int) : Int := Calendar.monthIndex (day time) % 12

def dateFromTime (time : Int) : Int := Calendar.dayOf (day time)

def weekDay (time : Int) : Int := (day time + 4) % 7

def hourFromTime (time : Int) : Int := timeWithinDay time / msPerHour

def minFromTime (time : Int) : Int := timeWithinDay time % msPerHour / msPerMinute

def secFromTime (time : Int) : Int := timeWithinDay time % msPerMinute / msPerSecond

def msFromTime (time : Int) : Int := timeWithinDay time % msPerSecond

def decimalDigit (value : Nat) : CodeUnit := UInt16.ofNat (value % 10 + 48)

/-- A number of at most as many digits, with zeros before it. -/
def zeroPadded : Nat → Nat → Text
  | 0, _ => []
  | width + 1, value => zeroPadded width (value / 10) ++ [decimalDigit value]

def yearText (year : Int) : Text :=
  if 0 ≤ year ∧ year ≤ 9999 then zeroPadded 4 year.toNat
  else (if year < 0 then js "-" else js "+") ++ zeroPadded 6 year.natAbs

def dateText (time : Int) : Text :=
  yearText (yearFromTime time) ++ js "-" ++ zeroPadded 2 (monthFromTime time + 1).toNat ++ js "-" ++ zeroPadded 2 (dateFromTime time).toNat

def isoText (time : Int) : Text :=
  dateText time ++ js "T" ++ zeroPadded 2 (hourFromTime time).toNat ++ js ":" ++ zeroPadded 2 (minFromTime time).toNat ++ js ":" ++
    zeroPadded 2 (secFromTime time).toNat ++ js "." ++ zeroPadded 3 (msFromTime time).toNat ++ js "Z"

/-! The parts of a time determine it. -/

theorem makeTime_parts (time : Int) :
    makeTime (hourFromTime time) (minFromTime time) (secFromTime time) (msFromTime time) = timeWithinDay time := by
  unfold makeTime hourFromTime minFromTime secFromTime msFromTime timeWithinDay msPerHour msPerMinute msPerSecond msPerDay
  omega

theorem day_makeDate (days : Int) {time : Int} (first : 0 ≤ time) (last : time < msPerDay) : day (makeDate days time) = days := by
  unfold day makeDate
  unfold msPerDay at last ⊢
  omega

theorem timeWithinDay_makeDate (days : Int) {time : Int} (first : 0 ≤ time) (last : time < msPerDay) :
    timeWithinDay (makeDate days time) = time := by
  unfold timeWithinDay makeDate
  unfold msPerDay at last ⊢
  omega

theorem makeDate_parts (time : Int) : makeDate (day time) (timeWithinDay time) = time := by
  unfold makeDate day timeWithinDay msPerDay
  omega

theorem timeWithinDay_bounds (time : Int) : 0 ≤ timeWithinDay time ∧ timeWithinDay time < msPerDay := by
  unfold timeWithinDay msPerDay
  omega

theorem yearFromTime_eq (time : Int) : yearFromTime time = Calendar.monthIndex (day time) / 12 := Calendar.yearOf_eq _

end Dates

namespace Whole

/-- What is made of the value of a finite number. -/
def part (of : Int → Int) : Whole → Whole
  | finite value => finite (of value)
  | _ => nan

def ofTime : Option Int → Whole
  | some time => finite time
  | none => nan

instance jsDates : JsDates Whole where
  dateUTC year month day hours minutes seconds milliseconds :=
    match year, month, day, hours, minutes, seconds, milliseconds with
    | finite year, finite month, finite day, finite hours, finite minutes, finite seconds, finite milliseconds =>
      ofTime (Dates.utc year month day hours minutes seconds milliseconds)
    | _, _, _, _, _, _, _ => nan
  getUTCFullYear := part Dates.yearFromTime
  getUTCMonth := part Dates.monthFromTime
  getUTCDate := part Dates.dateFromTime
  getUTCDay := part Dates.weekDay
  getUTCHours := part Dates.hourFromTime
  getUTCMinutes := part Dates.minFromTime
  getUTCSeconds := part Dates.secFromTime
  getUTCMilliseconds := part Dates.msFromTime
  toISOString
    | finite time => Dates.isoText time
    | _ => js "Invalid Date"

end Whole

end OpenShapeForge.Js
