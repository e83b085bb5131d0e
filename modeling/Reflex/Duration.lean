import Reflex.Number.Decimal

/-!
# Durations

Pauses are counted in nanoseconds, deadlines in milliseconds.

## Main definitions

- `Reflex.Duration.ofSeconds?`: the nanoseconds of a number of seconds.
- `Reflex.Duration.pauseMillis`: the whole milliseconds that a pause takes.
- `Reflex.Duration.text`: a number of milliseconds as text.
-/

namespace Reflex.Duration

/-- The number of nanoseconds in a second. -/
def nanosPerSecond : Nat := 1000000000

/-- The number of nanoseconds nearest to a number of seconds. Negative numbers, numbers from
`2 ^ 64` on and what is not finite are no durations. -/
def ofSeconds? (seconds : Double) : Option Nat :=
  match seconds.units? with
  | some units =>
    if units < 0 || (Word.size * Double.unitsPerOne : Nat) ≤ units then none
    else some (Double.roundDiv (units.toNat * nanosPerSecond) Double.unitsPerOne)
  | none => none

/-- The fewest whole milliseconds that are not shorter than a number of nanoseconds. -/
def toMillisUp (nanos : Nat) : Nat :=
  (nanos + 999999) / 1000000

/-- The milliseconds after which a pause is over. One that does not fit into a clock of 64 bits
ends after thirty years. -/
def pauseMillis (nanos : Nat) : Nat :=
  if Word.half * nanosPerSecond ≤ nanos then 30 * 365 * 86400 * 1000 else toMillisUp nanos

/-- A number of milliseconds as text, in the greatest unit that gives an integer part. -/
def text (ms : Nat) : String :=
  if ms = 0 then "0ns"
  else if ms < 1000 then Decimal.intText ms ++ "ms"
  else
    let fraction := Decimal.dropTrailingZeros (Decimal.padded 3 (ms % 1000))
    Decimal.intText (ms / 1000) ++
      (if fraction.isEmpty then "" else "." ++ String.ofList fraction) ++ "s"

end Reflex.Duration
