import Reflex.Calendar
import Reflex.Json
import Reflex.Text.Scan

/-!
# Dates and Times of Settings Files

A date, a time, or both with or without an offset. A document has no type for them, so each
becomes an object with one field that holds its text: date and time with `T` between them, the
fraction without zeros at its end, and `Z` or the offset.

## Main definitions

- `Reflex.Toml.Moment.read?`: a date, a time or both.
-/

namespace Reflex.Toml.Moment

/-- The name of the one field of a date or time. -/
def fieldName : String := "$__toml_private_datetime"

/-- Read exactly so many digits that make a number within bounds. -/
def number? (width least most : Nat) (cs : List Char) : Option (List Char × List Char) := do
  let (ds, rest) := Text.Scan.takeDigits width cs
  let n := Decimal.ofDigits ds
  if ds.length = width ∧ least ≤ n ∧ n ≤ most then some (ds, rest) else none

/-- Read a date. -/
def date? (cs : List Char) : Option (List Char × List Char) := do
  let (year, rest) ← number? 4 0 9999 cs
  let (month, rest) ← number? 2 1 12 (← Text.Scan.char? '-' rest)
  let days := Calendar.daysInMonth (Decimal.ofDigits year) (Decimal.ofDigits month)
  let (day, rest) ← number? 2 1 days (← Text.Scan.char? '-' rest)
  return (year ++ '-' :: month ++ '-' :: day, rest)

/-- Read a fraction of a second, if there is one; nine digits count. -/
def fraction (cs : List Char) : List Char × List Char :=
  match cs with
  | '.' :: rest =>
    let (ds, after) := Decimal.spanDigits rest
    if ds.isEmpty then ([], cs)
    else
      let kept := Decimal.dropTrailingZeros (ds.take 9)
      (if kept.isEmpty then [] else '.' :: kept, after)
  | _ => ([], cs)

/-- Read a time of day. The sixtieth second stands in every minute. -/
def time? (cs : List Char) : Option (List Char × List Char) := do
  let (hour, rest) ← number? 2 0 23 cs
  let (minute, rest) ← number? 2 0 59 (← Text.Scan.char? ':' rest)
  let (second, rest) ← number? 2 0 60 (← Text.Scan.char? ':' rest)
  let (fraction, rest) := fraction rest
  return (hour ++ ':' :: minute ++ ':' :: second ++ fraction, rest)

/-- Read an offset, if there is one. No offset in hours and minutes has no minus. -/
def offset? : List Char → Option (List Char × List Char)
  | 'Z' :: rest | 'z' :: rest => some (['Z'], rest)
  | c :: rest =>
    if c = '+' || c = '-' then do
      let (hour, rest) ← number? 2 0 23 rest
      let (minute, rest) ← number? 2 0 59 (← Text.Scan.char? ':' rest)
      -- there is no negative zero
      let isZero := Decimal.ofDigits (hour ++ minute) = 0
      return ((if isZero then '+' else c) :: hour ++ ':' :: minute, rest)
    else some ([], c :: rest)
  | [] => some ([], [])

/-- Read a time with or without an offset after a date. -/
def clock? : List Char → Option (List Char × List Char)
  | c :: rest =>
    if c = 'T' || c = 't' || c = ' ' then do
      let (time, rest) ← time? rest
      let (offset, rest) ← offset? rest
      return ('T' :: time ++ offset, rest)
    else none
  | [] => none

/-- Read the text of a date, a time or both. -/
def text? (cs : List Char) : Option (List Char × List Char) :=
  match date? cs with
  | some (date, rest) =>
    match clock? rest with
    | some (clock, rest) => some (date ++ clock, rest)
    | none => some (date, rest)
  | none => time? cs

/-- Read a date, a time or both. -/
def read? (cs : List Char) : Option (Json × List Char) :=
  (text? cs).map fun (text, rest) =>
    (.object [(fieldName, .string (String.ofList text))], rest)

end Reflex.Toml.Moment
