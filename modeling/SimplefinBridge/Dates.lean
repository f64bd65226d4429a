import SimplefinBridge.Types

/-!
# Dates and epochs

`Date.UTC`, the calendar helpers of the scheduler and the window helpers of
the feed.  A JavaScript date outside ±10⁸ days of the epoch is invalid, and
`toISOString` of an invalid date throws.
-/

namespace SimplefinBridge

open CivilDays

/-- `ToIntegerOrInfinity` -/
def toInteger (x : ℚ) : Int := if x < 0 then -⌊-x⌋ else ⌊x⌋

/-- `Date.UTC(year, monthIndex, day)` in days since the epoch: years 0 to 99
mean 1900 to 1999, months carry into years and days into months. -/
def dateUtcDay (year monthIndex day : ℚ) : Int :=
  let y := toInteger year
  let y := if 0 ≤ y ∧ y ≤ 99 then 1900 + y else y
  let m := toInteger monthIndex
  CivilDate.dayNumber ⟨y + m / 12, (m % 12).toNat + 1, 1⟩ + (toInteger day - 1)

/-- The date part of `toISOString`; years outside 0 to 9999 have a sign and six
digits. -/
def isoDatePart (day : Int) : List Char :=
  let date := CivilDate.ofDayNumber day
  if 0 ≤ date.year ∧ date.year ≤ 9999 then date.chars
  else
    let sign := if date.year < 0 then '-' else '+'
    sign :: (padded 6 date.year.natAbs ++ '-' :: (padded 2 date.month ++ '-' :: padded 2 date.day))

/-- `new Date(instant).toISOString()` of a valid date. -/
def toIsoString (instant : Instant) : String :=
  let time := (instant % 86400000).toNat
  String.ofList (isoDatePart (instant / 86400000) ++ 'T' :: (padded 2 (time / 3600000) ++
    ':' :: (padded 2 (time / 60000 % 60) ++ ':' :: (padded 2 (time / 1000 % 60) ++
    '.' :: (padded 3 (time % 1000) ++ ['Z'])))))

/-- `new Date(day * 86400000).toISOString().slice(0, 10)` -/
def dayIndexToDate (day : Int) : Except BridgeError IsoDate :=
  if |day| ≤ 100000000 then .ok (String.ofList ((isoDatePart day).take 10))
  else .error .invalidTime

section
variable (host : Host)

/-- `date.split('-').map(Number)`; `none` marks a part that is `NaN`. -/
def dateParts (date : IsoDate) : List (Option ℚ) :=
  (date.toList.splitOn '-').map fun part => host.number (String.ofList part)

/-- Add whole days to a calendar date, in UTC. -/
def addDays (date : IsoDate) (days : Int) : Except BridgeError IsoDate :=
  match dateParts host date with
  | some year :: some month :: some day :: _ => dayIndexToDate (dateUtcDay year (month - 1) (day + days))
  | _ => .error .invalidTime

/-- `calendarDate`: the date of an instant in the given time zone. -/
def calendarDate (instant : Instant) (timezone : String) : IsoDate := host.intlDate instant timezone

/-- `new Date(date + 'T00:00:00.000Z')`, with `none` for an invalid date. -/
abbrev JsDate := Option Instant

def dateOf (date : IsoDate) : JsDate := host.utcMidnight date

end

/-- One step of `maxDate`: an invalid date compares with nothing. -/
def laterDate (max : Option JsDate) (date : Option JsDate) : Option JsDate :=
  match date, max with
  | none, max => max
  | some date, none => some date
  | some (some date), some (some max) => if date > max then some (some date) else some (some max)
  | some _, some max => some max

/-- Largest of the given dates, undefined entries ignored. -/
def maxDate (dates : List (Option JsDate)) : Option JsDate := dates.foldl laterDate none

end SimplefinBridge
