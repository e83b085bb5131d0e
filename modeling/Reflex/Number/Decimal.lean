import Reflex.Number.Double

/-!
# Decimal Texts of Numbers

A finite double is written with the fewest digits that read back to it, and of those with the
nearest. What remains, where the point stands and whether an exponent is used, is the `Layout`
of a format. This module also reads decimal texts.

## Main definitions

- `Reflex.Decimal.shortest`: the digits of a positive double.
- `Reflex.Decimal.Layout`: the decisions of a format, with the two formats
  `Reflex.Decimal.Layout.plain` and `Reflex.Decimal.Layout.scientific`.
- `Reflex.Decimal.readDouble?`, `Reflex.Decimal.readInt64?`: the readers.
-/

namespace Reflex.Decimal

/-- The value of a decimal digit. -/
def digit? (c : Char) : Option Nat :=
  if '0' ≤ c ∧ c ≤ '9' then some (c.toNat - '0'.toNat) else none

/-- Whether a character is a decimal digit. -/
def isDigit (c : Char) : Bool :=
  (digit? c).isSome

/-- The number that a list of digits denotes; other characters count as zero. -/
def ofDigits (cs : List Char) : Nat :=
  cs.foldl (fun acc c => acc * 10 + (digit? c).getD 0) 0

/-- The decimal digits of a number. -/
def digits (n : Nat) : List Char :=
  Nat.toDigits 10 n

/-- The digits of a number, with zeros in front up to a width. -/
def padded (width n : Nat) : List Char :=
  let ds := digits n
  List.replicate (width - ds.length) '0' ++ ds

/-- The text of an integer. -/
def intText (n : Int) : String :=
  if n < 0 then "-" ++ String.ofList (digits n.natAbs) else String.ofList (digits n.natAbs)

/-! ## Shortest digits -/

/-- A number `significand * 2 ^ exponent` over `10 ^ place`, as a numerator and a
denominator. -/
def overPower (significand : Nat) (exponent place : Int) : Nat × Nat :=
  let (n, d) := if 0 ≤ exponent then (significand * powerOfTwo exponent.toNat, 1)
    else (significand, powerOfTwo (-exponent).toNat)
  if 0 ≤ place then (n, d * powerOfTen place.toNat) else (n * powerOfTen (-place).toNat, d)

/-- The exponent `p` with `10 ^ p ≤ significand * 2 ^ exponent < 10 ^ (p + 1)`. -/
def decimalExponent (significand : Nat) (exponent : Int) : Int :=
  -- the guess from the binary logarithm is off by one at most
  let guess := ((Nat.log2 significand : Int) + exponent) * 30103 / 100000
  let reaches (p : Int) : Bool :=
    let q := overPower significand exponent p
    q.2 ≤ q.1
  if reaches (guess + 1) then guess + 1 else if reaches guess then guess else guess - 1

/-- The interval of quarter units whose reals round to a double: from three or two quarters
below to two quarters above; its ends belong to it when the significand is even. -/
def roundingInterval (significand : Nat) (exponent : Int) : Nat × Nat :=
  -- below a power of two the doubles lie twice as close
  let below := if significand = 0x10000000000000 ∧ -1074 < exponent then 1 else 2
  (4 * significand - below, 4 * significand + 2)

/-- Whether `candidate * 10 ^ place` rounds to the double. -/
def readsBack (significand : Nat) (exponent : Int) (place : Int) (candidate : Nat) : Bool :=
  let (lo, hi) := roundingInterval significand exponent
  let low := overPower lo (exponent - 2) place
  let high := overPower hi (exponent - 2) place
  if significand % 2 = 0 then low.1 ≤ candidate * low.2 && candidate * high.2 ≤ high.1
  else low.1 < candidate * low.2 && candidate * high.2 < high.1

/-- The nearer of the two neighbours of the double on a decimal grid that reads back, if one
does. -/
def onGrid? (tieUp : Bool) (significand : Nat) (exponent : Int) (place : Int) : Option Nat :=
  let (n, d) := overPower significand exponent place
  let floor := n / d
  let rest := n % d
  let below := readsBack significand exponent place floor && floor ≠ 0
  let above := readsBack significand exponent place (floor + 1)
  -- a tie goes up or to the even digit
  let nearerAbove := d < 2 * rest || (2 * rest == d && (tieUp || floor % 2 == 1))
  match below, above with
  | true, true => some (if nearerAbove then floor + 1 else floor)
  | true, false => some floor
  | false, true => some (floor + 1)
  | false, false => none

/-- Search the grids of growing fineness. -/
def searchGrids (tieUp : Bool) (significand : Nat) (exponent : Int) : Nat → Int → Nat × Int
  | 0, place => (roundDown place, place)
  | count + 1, place =>
    match onGrid? tieUp significand exponent place with
    | some candidate => (candidate, place)
    | none => searchGrids tieUp significand exponent count (place - 1)
where
  /-- The value on the last grid, cut off. -/
  roundDown (place : Int) : Nat :=
    let q := overPower significand exponent place
    q.1 / q.2

/-- Drop the zeros at the end of a digit list. -/
def dropTrailingZeros (ds : List Char) : List Char :=
  (ds.reverse.dropWhile (· == '0')).reverse

/-- The fewest digits that read back to the positive double, without zeros at the end, and the
exponent of its first digit. Seventeen digits always suffice. -/
def shortest (tieUp : Bool) (significand : Nat) (exponent : Int) : List Char × Int :=
  let (candidate, place) := searchGrids tieUp significand exponent 17
    (decimalExponent significand exponent)
  let ds := digits candidate
  (dropTrailingZeros ds, place + ds.length - 1)

/-! ## Layouts -/

/-- The decisions of a format that writes doubles. -/
structure Layout where
  /-- The exponents of the first digit that are written without an exponent part; all of them
  if there are no bounds. -/
  positional : Option (Int × Int)
  /-- Whether an integral number ends in a point and a zero. -/
  marksIntegral : Bool
  /-- Whether a tie between two shortest digit lists goes up and not to the even digit. -/
  tieUp : Bool
  /-- The text of what is not a number. -/
  nan : String
  /-- The text of the positive infinity. -/
  infinity : String
  /-- The text of the negative infinity. -/
  negativeInfinity : String

/-- The plain format: no exponents, and integral numbers look like integers. -/
def Layout.plain : Layout where
  positional := none
  marksIntegral := false
  tieUp := true
  nan := "NaN"
  infinity := "inf"
  negativeInfinity := "-inf"

/-- The format of documents: numbers from `1e-5` to below `1e16` are positional, integral ones
are marked, and there is no text for what is not finite. -/
def Layout.scientific : Layout where
  positional := some (-5, 15)
  marksIntegral := true
  tieUp := false
  nan := "null"
  infinity := "null"
  negativeInfinity := "null"

/-- Digits whose first one has the exponent `lead`, written out around the point. -/
def positionalText (marksIntegral : Bool) (ds : List Char) (lead : Int) : List Char :=
  if lead < 0 then
    '0' :: '.' :: (List.replicate (-lead - 1).toNat '0' ++ ds)
  else
    let whole := lead.toNat + 1
    if ds.length ≤ whole then
      ds ++ List.replicate (whole - ds.length) '0' ++ (if marksIntegral then ['.', '0'] else [])
    else ds.take whole ++ '.' :: ds.drop whole

/-- Digits with the point after the first one, and the exponent with its sign. -/
def exponentText (ds : List Char) (lead : Int) : List Char :=
  let mantissa := match ds with
    | d :: rest@(_ :: _) => d :: '.' :: rest
    | _ => ds
  mantissa ++ 'e' :: (if lead < 0 then '-' else '+') :: digits lead.natAbs

/-- The text of a double in a format. -/
def Layout.text (layout : Layout) : Double → String
  | .nan => layout.nan
  | .infinite negative => if negative then layout.negativeInfinity else layout.infinity
  | .finite negative m e _ =>
    let body :=
      if m = 0 then (if layout.marksIntegral then ['0', '.', '0'] else ['0'])
      else
        let (ds, lead) := shortest layout.tieUp m e
        let inBounds := match layout.positional with
          | none => true
          | some (least, most) => least ≤ lead && lead ≤ most
        if inBounds then positionalText layout.marksIntegral ds lead else exponentText ds lead
    String.ofList (if negative then '-' :: body else body)

/-! ## Readers -/

/-- Split off the digits at the start. -/
def spanDigits (cs : List Char) : List Char × List Char :=
  (cs.takeWhile isDigit, cs.dropWhile isDigit)

/-- Split off a sign at the start; the flag says whether it is a minus. -/
def spanSign : List Char → Bool × List Char
  | '-' :: rest => (true, rest)
  | '+' :: rest => (false, rest)
  | rest => (false, rest)

/-- Read an exponent part that must be the whole text: a sign and at least one digit. -/
def readExponent? (cs : List Char) : Option Int :=
  let (negative, rest) := spanSign cs
  let (ds, rest) := spanDigits rest
  if ds.isEmpty || !rest.isEmpty then none
  else some (Double.signed negative (ofDigits ds))

/-- Read a decimal number with an optional fraction and an optional exponent; a digit must
stand on one side of the point. -/
def readNumber? (negative : Bool) (cs : List Char) : Option Double :=
  let (whole, rest) := spanDigits cs
  let (fraction, rest) := match rest with
    | '.' :: rest => spanDigits rest
    | _ => ([], rest)
  if whole.isEmpty && fraction.isEmpty then none
  else
    let mantissa := ofDigits (whole ++ fraction)
    let places : Int := fraction.length
    match rest with
    | [] => some (.ofDecimal negative mantissa (-places))
    | c :: rest =>
      if c == 'e' || c == 'E' then
        (readExponent? rest).map fun e => .ofDecimal negative mantissa (e - places)
      else none

/-- Read a double: an optional sign, then a number, an infinity or `nan` in any case. -/
def readDouble? (s : String) : Option Double :=
  let (negative, rest) := spanSign s.toList
  let word := String.ofList (rest.map Char.toLower)
  if word = "nan" then some .nan
  else if word = "inf" || word = "infinity" then some (.infinite negative)
  else readNumber? negative rest

/-- Whether an integer fits into 64 bits with a sign. -/
def fitsInt64 (n : Int) : Bool :=
  -Word.half ≤ n && n < Word.half

/-- Read an integer of 64 bits: an optional sign and digits, nothing else. -/
def readInt64? (cs : List Char) : Option Int :=
  let (negative, rest) := spanSign cs
  let (ds, rest) := spanDigits rest
  if ds.isEmpty || !rest.isEmpty then none
  else
    let n := Double.signed negative (ofDigits ds)
    if fitsInt64 n then some n else none

end Reflex.Decimal
