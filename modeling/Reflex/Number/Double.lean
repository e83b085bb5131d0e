import Reflex.Number.Word

/-!
# Doubles

Binary floating-point numbers of 64 bits, without their bit patterns: a finite double is a
sign, a significand and an exponent in the one canonical form that the format allows. Every
finite double is a whole multiple of `2 ^ (-1074)`, so the `units` of a double are an exact
integer image of its value, and order, rounding and integrality are stated on it.

## Main definitions

- `Reflex.Double`: not a number, the infinities, and the finite numbers.
- `Reflex.Double.units?`: the exact value as a multiple of the least positive double.
- `Reflex.Double.ofRatio`: the double nearest to a quotient, ties to even.
- `Reflex.Double.compare?`: the order of the numbers; a signed zero equals the other one.
-/

namespace Reflex

/-- The significand and the exponent of a finite double in canonical form: the significand
has 53 bits, unless the exponent is the least one. -/
def Double.Canonical (significand : Nat) (exponent : Int) : Prop :=
  significand < 0x20000000000000 ∧ -1074 ≤ exponent ∧ exponent ≤ 971 ∧
    (0x10000000000000 ≤ significand ∨ exponent = -1074)

instance (m : Nat) (e : Int) : Decidable (Double.Canonical m e) := by
  unfold Double.Canonical; infer_instance

/-- A binary floating-point number of 64 bits. -/
inductive Double where
  -- The result that is not a number.
  | nan
  -- The infinity of a sign.
  | infinite (negative : Bool)
  -- The number `significand * 2 ^ exponent` with a sign; zero has two signs.
  | finite (negative : Bool) (significand : Nat) (exponent : Int)
      (canonical : Double.Canonical significand exponent)
  deriving DecidableEq

namespace Double

/-- Zero with a sign. -/
def zero (negative : Bool) : Double :=
  .finite negative 0 (-1074) (by decide)

instance : Inhabited Double := ⟨zero false⟩

/-- Whether the number is neither infinite nor not a number. -/
def isFinite : Double → Bool
  | .finite .. => true
  | _ => false

/-- Apply a sign to a magnitude. -/
def signed (negative : Bool) (magnitude : Nat) : Int :=
  if negative then -(magnitude : Int) else magnitude

/-- The value of a finite double as a multiple of `2 ^ (-1074)`. -/
def units? : Double → Option Int
  | .finite s m e _ => some (signed s (m * powerOfTwo (e + 1074).toNat))
  | _ => none

/-- The number of units in one. -/
def unitsPerOne : Nat := powerOfTwo 1074

/-! ## Order -/

/-- The place of a number on the extended line: infinities outside, finite numbers by their
units. -/
def position? : Double → Option (Int × Int)
  | .nan => none
  | .infinite negative => some (if negative then -1 else 1, 0)
  | .finite s m e _ => some (0, signed s (m * powerOfTwo (e + 1074).toNat))

/-- The order of two numbers as numbers; there is none when one is not a number. -/
def compare? (a b : Double) : Option Ordering :=
  match a.position?, b.position? with
  | some x, some y => some ((compare x.1 y.1).then (compare x.2 y.2))
  | _, _ => none

/-- Strictly less as numbers. -/
def lt (a b : Double) : Bool :=
  a.compare? b == some .lt

/-- Equal as numbers: the zeros are equal, and what is not a number equals nothing. -/
def same (a b : Double) : Bool :=
  a.compare? b == some .eq

/-- The integer that a finite double equals, if it equals one. -/
def toInt? (a : Double) : Option Int :=
  match a.units? with
  | some u => if u % unitsPerOne = 0 then some (u / unitsPerOne) else none
  | none => none

/-! ## Rounding -/

/-- The quotient rounded to the nearest integer, a half to the even one. -/
def roundDiv (num den : Nat) : Nat :=
  let q := num / den
  let r := num % den
  if 2 * r < den then q else if den < 2 * r then q + 1 else if q % 2 = 0 then q else q + 1

/-- The quotient over `2 ^ exponent`, as a numerator and a denominator. -/
def scaled (num den : Nat) (exponent : Int) : Nat × Nat :=
  if 0 ≤ exponent then (num, den * powerOfTwo exponent.toNat)
  else (num * powerOfTwo (-exponent).toNat, den)

/-- The exponent of the grid of doubles around a positive quotient: the one that leaves 53
bits before the point, but never less than the least exponent. -/
def gridExponent (num den : Nat) : Int :=
  let guess : Int := (Nat.log2 num : Int) - Nat.log2 den - 52
  let s := scaled num den (guess + 52)
  max (if s.1 < s.2 then guess - 1 else guess) (-1074)

/-- The double nearest to `num / den`, a half to the even significand; beyond the range it is
infinite. The denominator is positive. -/
def ofRatio (negative : Bool) (num den : Nat) : Double :=
  if num = 0 then zero negative
  else
    let e := gridExponent num den
    let s := scaled num den e
    let m := roundDiv s.1 s.2
    -- rounding up to the next power of two takes one bit more
    let (m, e) := if m = 0x20000000000000 then (0x10000000000000, e + 1) else (m, e)
    if h : Canonical m e then .finite negative m e h else .infinite negative

/-- The double nearest to an integer. -/
def ofInt (n : Int) : Double :=
  ofRatio (n < 0) n.natAbs 1

/-- The double nearest to `digits * 10 ^ exponent`. Exponents far outside the range are
settled by the number of digits, without the power. -/
def ofDecimal (negative : Bool) (digits : Nat) (exponent : Int) : Double :=
  let size : Int := (Nat.toDigits 10 digits).length + exponent
  if digits = 0 ∨ size < -330 then zero negative
  else if 330 < size then .infinite negative
  else if 0 ≤ exponent then ofRatio negative (digits * powerOfTen exponent.toNat) 1
  else ofRatio negative digits (powerOfTen (-exponent).toNat)

/-- The double nearest to a product of magnitudes, under a sign. -/
def mulMagnitude (negative : Bool) (a b : Double) : Double :=
  match a.units?, b.units? with
  | some x, some y => ofRatio negative (x.natAbs * y.natAbs) (unitsPerOne * unitsPerOne)
  | _, _ => .infinite negative

/-- The double nearest to a quotient of magnitudes, under a sign. -/
def divMagnitude (negative : Bool) (a b : Double) : Double :=
  match a.units?, b.units? with
  | some x, some y => ofRatio negative x.natAbs y.natAbs
  | _, _ => .nan

end Double

end Reflex
