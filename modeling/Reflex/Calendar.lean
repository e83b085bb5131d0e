import Reflex.TimeOfDay

/-!
# Dates and Timestamps

Days are counted from 1970-01-01 in the proleptic Gregorian calendar. A timestamp is a day and
a time of day in universal time.

## Main definitions

- `Reflex.Calendar.dayNumber?`: the number of a date, if the date exists.
- `Reflex.Calendar.weekday`: Monday is 1 and Sunday is 7.
- `Reflex.Moment`: a day with a time of day, read by `Moment.readLocal?` without and by
  `Moment.readOffset?` with an offset from universal time.
-/

namespace Reflex

namespace Calendar

/-- Whether a year has a 29th of February. -/
def isLeapYear (year : Int) : Bool :=
  year % 4 == 0 && (year % 100 != 0 || year % 400 == 0)

/-- The number of days of a month. -/
def daysInMonth (year : Int) (month : Nat) : Nat :=
  match month with
  | 2 => if isLeapYear year then 29 else 28
  | 4 | 6 | 9 | 11 => 30
  | _ => 31

/-- The first and the last year of the calendar. -/
def yearBounds : Int × Int := (-262143, 262142)

/-- The number of the day before 1 March of year 0, from which years of 365 and 366 days are
counted in groups of 400. -/
def marchEpoch : Int := -719468

/-- The number of a date. The year is taken to start in March, so that the day that a leap year
adds is its last one. -/
def dayNumber (year : Int) (month day : Nat) : Int :=
  let y := if month ≤ 2 then year - 1 else year
  let m : Int := if month ≤ 2 then month + 9 else month - 3
  365 * y + y / 4 - y / 100 + y / 400 + (153 * m + 2) / 5 + day - 1 + marchEpoch

/-- The number of a date, if the date exists. -/
def dayNumber? (year : Int) (month day : Nat) : Option Int :=
  if yearBounds.1 ≤ year ∧ year ≤ yearBounds.2 ∧ 1 ≤ month ∧ month ≤ 12 ∧
      1 ≤ day ∧ day ≤ daysInMonth year month then some (dayNumber year month day)
  else none

/-- The year, month and day of a number. -/
def civil (number : Int) : Int × Nat × Nat :=
  -- eras of 400 years, years of an era, and months from March on
  let z := number - marchEpoch
  let era := z / 146097
  let doe := z % 146097
  let yoe := (doe - doe / 1460 + doe / 36524 - doe / 146096) / 365
  let doy := doe - (365 * yoe + yoe / 4 - yoe / 100)
  let mp := (5 * doy + 2) / 153
  let day := doy - (153 * mp + 2) / 5 + 1
  let month := if mp < 10 then mp + 3 else mp - 9
  (yoe + era * 400 + (if month ≤ 2 then 1 else 0), month.toNat, day.toNat)

/-- The day of the week, from 1 for Monday to 7 for Sunday. -/
def weekday (number : Int) : Nat :=
  ((number + 3) % 7).toNat + 1

/-- A year with at least four digits; beyond these the sign is written too. -/
def yearText (year : Int) : List Char :=
  if 0 ≤ year ∧ year ≤ 9999 then Decimal.padded 4 year.toNat
  else (if year < 0 then '-' else '+') :: Decimal.padded 4 year.natAbs

/-- `YYYY-MM-DD`. -/
def dateText (number : Int) : String :=
  let (year, month, day) := civil number
  String.ofList (yearText year ++ '-' :: Decimal.padded 2 month ++ '-' :: Decimal.padded 2 day)

end Calendar

/-- A day and a time of day. -/
structure Moment where
  /-- The number of the day since 1970-01-01. -/
  day : Int
  /-- The time of that day. -/
  time : TimeOfDay
  deriving DecidableEq

namespace Moment

open Text Text.Scan

/-- Read a year, a month and a day between dashes. -/
def scanDate? (cs : List Char) : Option (Int × List Char) := do
  let (year, rest) ← signedField? 4 cs
  let rest ← separator? '-' rest
  let (month, rest) ← field? 2 rest
  let rest ← separator? '-' rest
  let (day, rest) ← field? 2 rest
  return (← Calendar.dayNumber? year month day, rest)

/-- Read an hour, a minute and a second between colons, with an optional fraction. -/
def scanTime? (cs : List Char) : Option (TimeOfDay × List Char) := do
  let (hour, rest) ← field? 2 cs
  let rest ← separator? ':' rest
  let (minute, rest) ← field? 2 rest
  let rest ← separator? ':' rest
  let (second, rest) ← field? 2 rest
  let (nano, rest) ← fraction? rest
  return (← TimeOfDay.ofClock? hour minute second nano, rest)

/-- Read a local date and time separated by `T`. -/
def readLocal? (s : String) : Option Moment := do
  let (day, rest) ← scanDate? s.toList
  let rest ← separator? 'T' rest
  let (time, rest) ← scanTime? rest
  if atEnd rest then some ⟨day, time⟩ else none

/-- Read an offset in seconds: `Z`, `UTC`, or a sign with hours and minutes, between which
colons and blanks may stand. -/
def scanOffset? (cs : List Char) : Option (Int × List Char) :=
  if (cs.take 3).map Char.toUpper == ['U', 'T', 'C'] then some (0, cs.drop 3)
  else match cs with
    | 'Z' :: rest | 'z' :: rest => some (0, rest)
    | '+' :: rest => (clock? rest).map fun (n, rest) => ((n : Int), rest)
    | '-' :: rest | '\u2212' :: rest => (clock? rest).map fun (n, rest) => (-(n : Int), rest)
    | _ => none
where
  /-- Two digits of hours and two digits of minutes. -/
  clock? (cs : List Char) : Option (Nat × List Char) := do
    let (hs, rest) := takeDigits 2 cs
    let rest := rest.dropWhile fun c => c == ':' || isBlankChar c
    let (ms, rest) := takeDigits 2 rest
    if hs.length = 2 ∧ ms.length = 2 ∧ Decimal.ofDigits ms < 60 then
      some (Decimal.ofDigits hs * 3600 + Decimal.ofDigits ms * 60, rest)
    else none

/-- Move a moment back by an offset of whole minutes. -/
def backBy (m : Moment) (minutes : Int) : Moment :=
  let total : Int := m.time.second - minutes * 60
  { day := m.day + total / 86400
    time :=
      { second := (total % 86400).toNat, nano := m.time.nano
        second_lt := by omega
        nano_lt := m.time.nano_lt
        leap_last := fun h => by have := m.time.leap_last h; omega } }

/-- Read a date and a time with an offset, as a moment in universal time. A `T`, a `t` or a
space stands between date and time. -/
def readOffset? (s : String) : Option Moment := do
  let (day, rest) ← scanDate? s.toList
  let rest ← match rest with
    | c :: rest => if c == 'T' || c == 't' || c == ' ' then some rest else none
    | [] => none
  let (time, rest) ← scanTime? rest
  let (offset, rest) ← scanOffset? (trimStart rest)
  -- an offset consists of whole minutes
  let moment := backBy ⟨day, time⟩ (offset / 60)
  let year := (Calendar.civil moment.day).1
  if atEnd rest && offset.natAbs < 86400 && Calendar.yearBounds.1 ≤ year &&
      year ≤ Calendar.yearBounds.2 then some moment else none

/-- The moment in universal time, with the exact fraction and a `Z`. -/
def text (m : Moment) : String :=
  Calendar.dateText m.day ++ "T" ++ m.time.fullText ++ "Z"

end Moment

end Reflex
