import Reflex.Json

/-!
# Reading Documents

The reader of document texts. Lists and objects nest at most 127 deep. A number without a point
and an exponent is an integer if it fits into 64 bits, with or without a sign; minus zero and
all other numbers are doubles. A double is computed from the digits that fit into 64 bits and a
power of ten, with one rounding for each, so it can differ in the last place from the double
nearest to a long decimal.

## Main definitions

- `Reflex.Json.read?`: the document of a text.
- `Reflex.Json.Numeral`, `Reflex.Json.spanNumeral?`: the parts of a written number.
- `Reflex.Json.Number.ofParts?`: a double from a significand and a power of ten.
-/

namespace Reflex.Json

/-! ## Numbers -/

namespace Number

/-- The greatest significand that is kept exactly. -/
def maxSignificand : Nat := Word.size - 1

/-- Take digits into a significand until one no longer fits, and say how many were taken. -/
def accumulate (significand : Nat) : List Char → Nat × Nat
  | [] => (significand, 0)
  | c :: cs =>
    let next := significand * 10 + (Decimal.digit? c).getD 0
    if maxSignificand < next then (significand, 0)
    else
      let (result, taken) := accumulate next cs
      (result, taken + 1)

/-- The double nearest to a power of ten with an exponent up to 308. -/
def roundedPower (exponent : Nat) : Double :=
  Double.ofDecimal false 1 exponent

/-- Scale a magnitude by a power of ten: one product or one quotient, after quotients by
`1e308` for exponents below the table. There is no result beyond the range. -/
def scale? (negative : Bool) : Nat → Double → Int → Option Double
  | 0, _, _ => some (.zero negative)
  | steps + 1, magnitude, exponent =>
    if exponent.natAbs ≤ 308 then
      if 0 ≤ exponent then
        let product := Double.mulMagnitude negative magnitude (roundedPower exponent.toNat)
        if product.isFinite then some product else none
      else some (Double.divMagnitude negative magnitude (roundedPower exponent.natAbs))
    else if magnitude.same (.zero false) then some (.zero negative)
    else if 0 ≤ exponent then none
    else scale? negative steps (Double.divMagnitude false magnitude (roundedPower 308))
      (exponent + 308)

/-- The double of a significand and a power of ten. Two quotients by `1e308` take every
significand below the least double. -/
def ofParts? (negative : Bool) (significand : Nat) (exponent : Int) : Option Double :=
  scale? negative 4 (Double.ofInt significand) exponent

end Number

/-- The parts of a written number. -/
structure Numeral where
  /-- Whether a minus sign stands in front. -/
  negative : Bool
  /-- The digits in front of the point. -/
  whole : List Char
  /-- The digits behind the point, none if there is no point. -/
  fraction : List Char
  /-- The power of ten, if one is written. -/
  exponent : Option Int
  deriving DecidableEq, Repr

/-- Take a minus sign off; the flag says whether there is one. -/
def spanMinus : List Char → Bool × List Char
  | '-' :: rest => (true, rest)
  | rest => (false, rest)

/-- Take the digits behind the point off, if there is a point. -/
def spanFraction? : List Char → Option (List Char × List Char)
  | '.' :: rest =>
    let (ds, rest) := Decimal.spanDigits rest
    if ds.isEmpty then none else some (ds, rest)
  | rest => some ([], rest)

/-- Take the power of ten off, if there is one. -/
def spanExponent? : List Char → Option (Option Int × List Char)
  | 'e' :: rest | 'E' :: rest =>
    let (sign, rest) := Decimal.spanSign rest
    let (ds, rest) := Decimal.spanDigits rest
    if ds.isEmpty then none
    else some (some (Double.signed sign (Decimal.ofDigits ds)), rest)
  | rest => some (none, rest)

/-- Take the parts of a number off: no plus sign, no zero in front of another digit, and digits
after the point and in the exponent. -/
def spanNumeral? (cs : List Char) : Option (Numeral × List Char) := do
  let (negative, rest) := spanMinus cs
  let (whole, rest) := Decimal.spanDigits rest
  if whole.isEmpty || (whole.head? == some '0' && whole.length != 1) then none
  else
    let (fraction, rest) ← spanFraction? rest
    let (exponent, rest) ← spanExponent? rest
    return ({ negative, whole, fraction, exponent }, rest)

/-- The number of a numeral, if it is in range. -/
def Numeral.value? (n : Numeral) : Option Json :=
  let (significand, taken) := Number.accumulate 0 n.whole
  -- digits that do not fit only shift the point
  let dropped := n.whole.length - taken
  if n.fraction.isEmpty && n.exponent.isNone && dropped = 0 then
    if !n.negative then some (.int significand)
    else if significand = 0 then some (.double (.zero true))
    else if significand ≤ Word.half then some (.int (-(significand : Int)))
    else some (.double (Double.ofRatio true significand 1))
  else
    let (significand, places) := Number.accumulate significand n.fraction
    let start : Int := (dropped : Int) - places
    match n.exponent with
    | some e =>
      -- exponents beyond 32 bits are settled by their sign
      if 2147483648 ≤ e.natAbs then
        if significand ≠ 0 ∧ 0 < e then none else some (.double (.zero n.negative))
      else (Number.ofParts? n.negative significand (start + e)).map .double
    | none => (Number.ofParts? n.negative significand start).map .double

/-- Read a number that is in range. -/
def readNumber? (cs : List Char) : Option (Json × List Char) := do
  let (n, rest) ← spanNumeral? cs
  return (← n.value?, rest)

/-! ## Texts -/

/-- Read four hexadecimal digits. -/
def readHex4? (cs : List Char) : Option (Nat × List Char) :=
  let ds := cs.take 4
  if ds.length < 4 then none else (Hexadecimal.ofDigits? ds).map fun n => (n, cs.drop 4)

/-- Read what follows a backslash. Two escapes make one character when they are a surrogate
pair; a surrogate that stands alone is refused. -/
def readEscape? : List Char → Option (Char × List Char)
  | '"' :: rest => some ('"', rest)
  | '\\' :: rest => some ('\\', rest)
  | '/' :: rest => some ('/', rest)
  | 'b' :: rest => some ('\x08', rest)
  | 'f' :: rest => some ('\x0c', rest)
  | 'n' :: rest => some ('\n', rest)
  | 'r' :: rest => some ('\r', rest)
  | 't' :: rest => some ('\t', rest)
  | 'u' :: rest => do
    let (high, rest) ← readHex4? rest
    if high < 0xD800 ∨ 0xDFFF < high then return (Char.ofNat high, rest)
    -- the second half of a pair without its first half
    else if 0xDC00 ≤ high then none
    else
      match rest with
      | '\\' :: 'u' :: rest =>
        let (low, rest) ← readHex4? rest
        if 0xDC00 ≤ low ∧ low ≤ 0xDFFF then
          return (Char.ofNat (0x10000 + (high - 0xD800) * 1024 + (low - 0xDC00)), rest)
        else none
      | _ => none
  | _ => none

/-- Read the rest of a text after its opening quote. Control characters must be escaped. The
fuel bounds the number of characters. -/
def readString? : Nat → List Char → Option (List Char × List Char)
  | 0, _ => none
  | _, [] => none
  | fuel + 1, c :: rest =>
    if c = '"' then some ([], rest)
    else if c = '\\' then do
      let (escaped, rest) ← readEscape? rest
      let (cs, rest) ← readString? fuel rest
      return (escaped :: cs, rest)
    else if c.val < 0x20 then none
    else do
      let (cs, rest) ← readString? fuel rest
      return (c :: cs, rest)

/-! ## Trees -/

/-- Skip the four characters that may stand between the parts of a document. -/
def skipSpace (cs : List Char) : List Char :=
  cs.dropWhile fun c => c = ' ' || c = '\n' || c = '\t' || c = '\r'

mutual

/-- Read a document. The depth is the number of lists and objects that may still be opened; the
fuel bounds the number of steps. -/
def readValue? : Nat → Nat → List Char → Option (Json × List Char)
  | 0, _, _ => none
  | fuel + 1, depth, cs =>
    match skipSpace cs with
    | 'n' :: 'u' :: 'l' :: 'l' :: rest => some (.null, rest)
    | 't' :: 'r' :: 'u' :: 'e' :: rest => some (.bool true, rest)
    | 'f' :: 'a' :: 'l' :: 's' :: 'e' :: rest => some (.bool false, rest)
    | '"' :: rest => do
      let (s, rest) ← readString? (rest.length + 1) rest
      return (.string (String.ofList s), rest)
    | '[' :: rest =>
      if depth = 0 then none
      else
        match skipSpace rest with
        | ']' :: rest => some (.array [], rest)
        | rest => do
          let (items, rest) ← readItems? fuel (depth - 1) rest
          return (.array items, rest)
    | '\x7b' :: rest =>
      if depth = 0 then none
      else
        match skipSpace rest with
        | '\x7d' :: rest => some (.object [], rest)
        | rest => do
          let (fields, rest) ← readFields? fuel (depth - 1) rest
          return (.object fields, rest)
    | rest => readNumber? rest

/-- Read the items of a list up to its end. -/
def readItems? : Nat → Nat → List Char → Option (List Json × List Char)
  | 0, _, _ => none
  | fuel + 1, depth, cs => do
    let (item, rest) ← readValue? fuel depth cs
    match skipSpace rest with
    | ',' :: rest =>
      let (items, rest) ← readItems? fuel depth rest
      return (item :: items, rest)
    | ']' :: rest => return ([item], rest)
    | _ => none

/-- Read the fields of an object up to its end. -/
def readFields? : Nat → Nat → List Char → Option (List (String × Json) × List Char)
  | 0, _, _ => none
  | fuel + 1, depth, cs =>
    match skipSpace cs with
    | '"' :: rest => do
      let (name, rest) ← readString? (rest.length + 1) rest
      match skipSpace rest with
      | ':' :: rest =>
        let (value, rest) ← readValue? fuel depth rest
        let field := (String.ofList name, value)
        match skipSpace rest with
        | ',' :: rest =>
          let (fields, rest) ← readFields? fuel depth rest
          return (field :: fields, rest)
        | '\x7d' :: rest => return ([field], rest)
        | _ => none
      | _ => none
    | _ => none

end

/-- The number of lists and objects that may be open at once. -/
def maxDepth : Nat := 127

/-- The document of a text. Every step takes a character or is the last one on its level, so
twice the length bounds their number. -/
def read? (s : String) : Option Json := do
  let cs := s.toList
  let (j, rest) ← readValue? (2 * cs.length + 2) maxDepth cs
  if (skipSpace rest).isEmpty then some j else none

end Reflex.Json
