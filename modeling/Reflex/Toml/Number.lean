import Reflex.Json
import Reflex.Number.Hexadecimal

/-!
# Numbers of Settings Files

An integer has a sign and decimal digits without a zero in front, or no sign and digits in base
sixteen, eight or two after `0x`, `0o` or `0b`; it must fit into 64 bits with a sign. A double
has a fraction, an exponent or both, or is `inf` or `nan`. One underscore may stand between two
digits.

## Main definitions

- `Reflex.Toml.Number.read?`: an integer or a double.
-/

namespace Reflex.Toml.Number

/-- Read what follows a digit: further digits, each with or without one underscore before it. -/
def moreDigits? (isDigit : Char → Bool) : List Char → Option (List Char × List Char)
  | [] => some ([], [])
  | '_' :: c :: rest =>
    if isDigit c then (moreDigits? isDigit rest).map fun (ds, rest) => (c :: ds, rest) else none
  | c :: rest =>
    if isDigit c then (moreDigits? isDigit rest).map fun (ds, rest) => (c :: ds, rest)
    else if c = '_' then none
    else some ([], c :: rest)

/-- Read at least one digit. -/
def digits? (isDigit : Char → Bool) : List Char → Option (List Char × List Char)
  | c :: rest =>
    if isDigit c then (moreDigits? isDigit rest).map fun (ds, rest) => (c :: ds, rest) else none
  | [] => none

/-- Read decimal digits without a zero in front of another digit. -/
def whole? : List Char → Option (List Char × List Char)
  | '0' :: rest => some (['0'], rest)
  | cs => digits? Decimal.isDigit cs

/-- An integer, if it fits into 64 bits with a sign. -/
def integer? (n : Int) : Option Json :=
  if Decimal.fitsInt64 n then some (.int n) else none

/-- Read the digits of an integer in a base up to sixteen. -/
def inBase? (base : Nat) (cs : List Char) : Option (Json × List Char) := do
  let value c := ((Hexadecimal.digit? c).filter (· < base))
  let (ds, rest) ← digits? (fun c => (value c).isSome) cs
  let n := ds.foldl (fun acc c => acc * base + (value c).getD 0) 0
  return (← integer? n, rest)

/-- Read a fraction after its point, if there is one. -/
def fraction? : List Char → Option (Option (List Char) × List Char)
  | '.' :: rest => (digits? Decimal.isDigit rest).map fun (ds, rest) => (some ds, rest)
  | rest => some (none, rest)

/-- Read an exponent after its mark, if there is one. -/
def exponent? : List Char → Option (Option Int × List Char)
  | 'e' :: rest | 'E' :: rest =>
    let (negative, rest) := Decimal.spanSign rest
    (digits? Decimal.isDigit rest).map fun (ds, rest) =>
      (some (Double.signed negative (Decimal.ofDigits ds)), rest)
  | rest => some (none, rest)

/-- The double of the parts of a number. A number beyond the range is refused, but below zero
it is an infinity. -/
def double? (negative : Bool) (whole fraction : List Char) (exponent : Int) : Option Json :=
  match Double.ofDecimal negative (Decimal.ofDigits (whole ++ fraction))
      (exponent - fraction.length) with
  | .infinite false => none
  | d => some (.double d)

/-- Read a decimal number after its sign. -/
def decimal? (negative : Bool) (cs : List Char) : Option (Json × List Char) := do
  let (whole, rest) ← whole? cs
  let (fraction, rest) ← fraction? rest
  let (exponent, rest) ← exponent? rest
  if fraction.isNone && exponent.isNone then
    return (← integer? (Double.signed negative (Decimal.ofDigits whole)), rest)
  else return (← double? negative whole (fraction.getD []) (exponent.getD 0), rest)

/-- Read a number of any kind. -/
def read? : List Char → Option (Json × List Char)
  | '0' :: 'x' :: rest => inBase? 16 rest
  | '0' :: 'o' :: rest => inBase? 8 rest
  | '0' :: 'b' :: rest => inBase? 2 rest
  | cs =>
    let (negative, rest) := Decimal.spanSign cs
    match rest with
    | 'i' :: 'n' :: 'f' :: rest => some (.double (.infinite negative), rest)
    | 'n' :: 'a' :: 'n' :: rest => some (.double .nan, rest)
    | rest => decimal? negative rest

end Reflex.Toml.Number
