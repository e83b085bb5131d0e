import Reflex.Text.Scan

/-!
# Times of Day

A time of day is a second of the day and a fraction in nanoseconds. A leap second is the
fraction of second 59 that goes on for another second, so it can follow any minute and is
written as second 60.

## Main definitions

- `Reflex.TimeOfDay`, `Reflex.TimeOfDay.ofClock?`: the type and its constructor from a clock.
- `Reflex.TimeOfDay.read?`: the reader of entered times, `HH:MM` or `HH:MM:SS`.
- `Reflex.TimeOfDay.readExact?`: the reader of recorded times, which may have a fraction.
- `Reflex.TimeOfDay.fullText`, `secondText`, `minuteText`: the three written forms.
-/

namespace Reflex

/-- A time of day to the nanosecond. -/
structure TimeOfDay where
  /-- The second of the day. -/
  second : Nat
  /-- Nanoseconds since that second; a second or more only within a leap second. -/
  nano : Nat
  /-- The second belongs to the day. -/
  second_lt : second < 86400 := by omega
  /-- A leap second is over after another second. -/
  nano_lt : nano < 2000000000 := by omega
  /-- A leap second follows the last second of a minute. -/
  leap_last : 1000000000 ≤ nano → second % 60 = 59 := by omega
  deriving DecidableEq

namespace TimeOfDay

open Text Text.Scan

/-- The time of an hour, a minute, a second up to 60, and nanoseconds below a second. -/
def ofClock? (hour minute second nano : Nat) : Option TimeOfDay :=
  if h : hour < 24 ∧ minute < 60 ∧ second < 60 ∧ nano < 1000000000 then
    some { second := hour * 3600 + minute * 60 + second, nano := nano }
  else if h : hour < 24 ∧ minute < 60 ∧ second = 60 ∧ nano < 1000000000 then
    some { second := hour * 3600 + minute * 60 + 59, nano := nano + 1000000000 }
  else none

/-- The hour of the day. -/
def hour (t : TimeOfDay) : Nat := t.second / 3600

/-- The minute of the hour. -/
def minute (t : TimeOfDay) : Nat := t.second / 60 % 60

/-- The second of the minute as a clock shows it; 60 within a leap second. -/
def shownSecond (t : TimeOfDay) : Nat := t.second % 60 + t.nano / 1000000000

/-- The start of the minute. -/
def startOfMinute (t : TimeOfDay) : TimeOfDay :=
  { second := t.second / 60 * 60, nano := 0
    second_lt := by have := t.second_lt; omega }

/-- The order of times: by second, then by fraction. -/
def order (a b : TimeOfDay) : Ordering :=
  (compare a.second b.second).then (compare a.nano b.nano)

/-! ## Written forms -/

/-- `HH:MM`. -/
def minuteText (t : TimeOfDay) : String :=
  String.ofList (Decimal.padded 2 t.hour ++ ':' :: Decimal.padded 2 t.minute)

/-- `HH:MM:SS`; a fraction is left out. -/
def secondText (t : TimeOfDay) : String :=
  t.minuteText ++ String.ofList (':' :: Decimal.padded 2 t.shownSecond)

/-- A fraction of a second with as few groups of three digits as it needs, and none for
zero. -/
def fractionText (nano : Nat) : String :=
  if nano = 0 then ""
  else if nano % 1000000 = 0 then String.ofList ('.' :: Decimal.padded 3 (nano / 1000000))
  else if nano % 1000 = 0 then String.ofList ('.' :: Decimal.padded 6 (nano / 1000))
  else String.ofList ('.' :: Decimal.padded 9 nano)

/-- `HH:MM:SS` and the exact fraction. -/
def fullText (t : TimeOfDay) : String :=
  t.secondText ++ fractionText (t.nano % 1000000000)

/-! ## Readers -/

/-- Read an hour, a colon and a minute; blanks may stand before the numbers. -/
def scanMinute? (cs : List Char) : Option (Nat × Nat × List Char) := do
  let (hour, rest) ← field? 2 cs
  let rest ← char? ':' rest
  let (minute, rest) ← field? 2 rest
  return (hour, minute, rest)

/-- Read an entered time, `HH:MM:SS` or `HH:MM`. Blanks at the ends and before a number are
ignored, and a number may have one digit. -/
def read? (s : String) : Option TimeOfDay := do
  let (hour, minute, rest) ← scanMinute? (trim s.toList)
  if rest.isEmpty then ofClock? hour minute 0 0
  else
    let rest ← char? ':' rest
    let (second, rest) ← field? 2 rest
    if rest.isEmpty then ofClock? hour minute second 0 else none

/-- Read a colon, a second and an optional fraction; blanks may stand between the parts and
after them. -/
def scanSecond? (cs : List Char) : Option (Nat × Nat × List Char) := do
  let rest ← separator? ':' cs
  let (second, rest) ← field? 2 rest
  let (nano, rest) ← fraction? rest
  return (second, nano, trimStart rest)

/-- Read a recorded time, `HH:MM`, `HH:MM:SS` or `HH:MM:SS.fraction`. Blanks may stand between
the parts and at the ends. -/
def readExact? (s : String) : Option TimeOfDay := do
  let (hour, rest) ← field? 2 s.toList
  let rest ← separator? ':' rest
  let (minute, rest) ← field? 2 rest
  if atEnd rest then ofClock? hour minute 0 0
  else
    let (second, nano, rest) ← scanSecond? rest
    if rest.isEmpty then ofClock? hour minute second nano else none

end TimeOfDay

end Reflex
