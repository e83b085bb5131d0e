import Reflex.Number.Decimal

/-!
# Hexadecimal Digits

Numbers in base sixteen. Digits are written in lower case and read in any case.

## Main definitions

- `Reflex.Hexadecimal.digit`, `Reflex.Hexadecimal.digit?`: a digit and its value.
- `Reflex.Hexadecimal.padded`, `Reflex.Hexadecimal.ofDigits?`: the digits of a number and back.
-/

namespace Reflex.Hexadecimal

/-- The digit of a value below sixteen, in lower case. -/
def digit (n : Nat) : Char :=
  if n < 10 then Char.ofNat (48 + n) else Char.ofNat (87 + n)

/-- The value of a digit of any case. -/
def digit? (c : Char) : Option Nat :=
  match Decimal.digit? c with
  | some n => some n
  | none =>
    if 'a' ≤ c ∧ c ≤ 'f' then some (c.toNat - 87)
    else if 'A' ≤ c ∧ c ≤ 'F' then some (c.toNat - 55)
    else none

/-- Whether a character is a digit of any case. -/
def isDigit (c : Char) : Bool :=
  (digit? c).isSome

/-- The digits of a number without zeros in front. -/
def digits (n : Nat) : List Char :=
  Nat.toDigits 16 n

/-- The last digits of a number, with zeros in front up to a width. -/
def padded : Nat → Nat → List Char
  | 0, _ => []
  | width + 1, n => padded width (n / 16) ++ [digit (n % 16)]

/-- The number that a list of characters denotes, if they are all digits. -/
def ofDigits? (cs : List Char) : Option Nat :=
  cs.foldlM (fun acc c => (digit? c).map fun d => acc * 16 + d) 0

end Reflex.Hexadecimal
