import Reflex.Calendar
import Reflex.Json

/-!
# Values

The typed values that events carry and properties hold.

## Main definitions

- `Reflex.Value`: truth values, integers of 64 bits, doubles, times of day and texts.
- `Reflex.Value.compare?`: the partial order that triggers use; kinds that have no common
  order are incomparable.
- `Reflex.Value.display`: the text shown to a person.
- `Reflex.Value.toLiteral`, `Reflex.Value.toJson`, `Reflex.Value.ofJson?`: the raw value that is
  validated, and the recorded form with its reader.
-/

namespace Reflex

/-- A typed value. -/
inductive Value where
  -- A truth value.
  | bool (value : Bool)
  -- An integer of 64 bits.
  | int (value : Int64)
  -- A double.
  | double (value : Double)
  -- A time of day.
  | time (value : TimeOfDay)
  -- A text.
  | string (value : String)
  deriving DecidableEq

/-- The integer of 64 bits that equals an integer, if there is one. -/
def int64OfInt? (n : Int) : Option Int64 :=
  if Decimal.fitsInt64 n then some (Int64.ofInt n) else none

namespace Value

/-- The text of a text value. -/
def asText? : Value → Option String
  | .string s => some s
  | _ => none

/-- The number of a numeric value as a double. -/
def asDouble? : Value → Option Double
  | .int n => some (Double.ofInt n.toInt)
  | .double d => some d
  | _ => none

/-- The time of a time value, or of a text that is an entered time. -/
def asTime? : Value → Option TimeOfDay
  | .time t => some t
  | .string s => TimeOfDay.read? s
  | _ => none

/-- Whether the value is a time. -/
def isTime : Value → Bool
  | .time _ => true
  | _ => false

/-- The order of two texts by code point. -/
def textOrder (a b : String) : Ordering :=
  if a < b then .lt else if b < a then .gt else .eq

/-- The order of two values. Truth values, texts and numbers compare among themselves, integers
exactly with one another and otherwise as doubles; beside a time both are taken as times. -/
def compare? : Value → Value → Option Ordering
  | .bool a, .bool b => some (compare a b)
  | .string a, .string b => some (textOrder a b)
  | .int a, .int b => some (compare a.toInt b.toInt)
  | a, b =>
    if a.isTime || b.isTime then
      match a.asTime?, b.asTime? with
      | some s, some t => some (s.order t)
      | _, _ => none
    else
      match a.asDouble?, b.asDouble? with
      | some x, some y => x.compare? y
      | _, _ => none

/-- Equality of values as the program sees it: doubles are equal as numbers. -/
def same : Value → Value → Bool
  | .double a, .double b => a.same b
  | a, b => a == b

/-- The text shown to a person. A time is shown to the minute. -/
def display : Value → String
  | .bool b => if b then "true" else "false"
  | .int n => Decimal.intText n.toInt
  | .double d => Decimal.Layout.plain.text d
  | .time t => t.minuteText
  | .string s => s

/-- The raw value that stands for a value in validation. A time is given to the second, and a
double that is not finite is null. -/
def toRaw : Value → Json
  | .bool b => .bool b
  | .int n => .int n.toInt
  | .double d => if d.isFinite then .double d else .null
  | .time t => .string t.secondText
  | .string s => .string s

/-- The raw value as a literal. -/
def toLiteral (v : Value) : Literal :=
  .ofJson v.toRaw

/-! ## Recorded form -/

/-- The recorded form of a value. Times keep their fraction. -/
def toJson : Value → Json
  | .bool b => .bool b
  | .int n => .int n.toInt
  | .double d => if d.isFinite then .double d else .null
  | .time t => .string t.fullText
  | .string s => .string s

/-- Read the recorded form. The kinds are tried in their order, so an integer beyond 64 bits is
a double, and a text that reads as a recorded time is a time. -/
def ofJson? : Json → Option Value
  | .bool b => some (.bool b)
  | .int n =>
    match int64OfInt? n with
    | some i => some (.int i)
    | none => some (.double (Double.ofInt n))
  | .double d => some (.double d)
  | .string s =>
    match TimeOfDay.readExact? s with
    | some t => some (.time t)
    | none => some (.string s)
  | .null | .array _ | .object _ => none

end Value

end Reflex
