import Reflex.Number.Decimal
import Reflex.Text.Scan
import Mathlib.Data.List.Basic
import Mathlib.Data.List.TakeWhile

/-!
# Reading Back Decimal Digits

The digits of a number denote the number, also with zeros in front, and a scanner that takes as
many digits as were written reads it back.

## Main statements

- `Decimal.ofDigits_padded`: padded digits denote the number that was written.
- `Text.Scan.field?_padded`: the scanner of numbers reads it back.
- `Text.Scan.fraction?_padded`: the scanner of fractions reads it back in nanoseconds.
-/

namespace Reflex

namespace Decimal

variable {c : Char} {n width : Nat}

theorem digit?_of_isDigit (h : c.isDigit = true) : digit? c = some (c.toNat - '0'.toNat) := by
  simp only [Char.isDigit, Bool.and_eq_true, decide_eq_true_iff] at h
  exact if_pos h

theorem isDigit_of_char (h : c.isDigit = true) : isDigit c = true := by
  rw [isDigit, digit?_of_isDigit h]
  rfl

/-- The value of a list of digits is that of the standard library. -/
theorem ofDigits_eq_ofDigitChars {cs : List Char} (h : ∀ c ∈ cs, c.isDigit = true) :
    ofDigits cs = Nat.ofDigitChars 10 cs 0 := by
  rw [ofDigits, Nat.ofDigitChars_eq_foldl]
  refine List.foldl_ext _ _ 0 fun acc c hc => ?_
  rw [digit?_of_isDigit (h c hc), Option.getD_some, Nat.mul_comm]

theorem isDigit_of_mem_padded (hc : c ∈ padded width n) : c.isDigit = true := by
  rcases List.mem_append.1 hc with hzero | hdigit
  · obtain rfl := List.eq_of_mem_replicate hzero
    rfl
  · exact Nat.isDigit_of_mem_toDigits (by decide) (by decide) hdigit

theorem padded_ne_nil (width n : Nat) : padded width n ≠ [] := by
  simp [padded, digits, Nat.toDigits_ne_nil]

/-- Padded digits denote the number that was written. -/
theorem ofDigits_padded (width n : Nat) : ofDigits (padded width n) = n := by
  rw [ofDigits_eq_ofDigitChars fun _ => isDigit_of_mem_padded, padded, Nat.ofDigitChars_append,
    Nat.ofDigitChars_replicate_zero, Nat.mul_zero]
  exact Nat.ofDigitChars_ten_toDigits

/-- A number that fits into the width takes as many digits. -/
theorem length_padded (hwidth : 0 < width) (hn : n < powerOfTen width) :
    (padded width n).length = width := by
  have hlength : (digits n).length ≤ width := (Nat.length_toDigits_le_iff (by decide) hwidth).2 hn
  rw [padded, List.length_append, List.length_replicate]
  omega

end Decimal

namespace Text

namespace Scan

variable {n width : Nat}

/-- Padded digits are digits. -/
theorem takeWhile_isDigit_padded (width n : Nat) :
    (Decimal.padded width n).takeWhile Decimal.isDigit = Decimal.padded width n :=
  List.takeWhile_eq_self_iff.2 fun _ hc =>
    Decimal.isDigit_of_char (Decimal.isDigit_of_mem_padded hc)

/-- A scanner that takes as many digits as were written reads a number back. -/
theorem number?_padded (hwidth : 0 < width) (hn : n < powerOfTen width) (rest : List Char) :
    number? width (Decimal.padded width n ++ rest) = some (n, rest) := by
  have hlength := Decimal.length_padded hwidth hn
  have htake : takeDigits width (Decimal.padded width n ++ rest) =
      (Decimal.padded width n, rest) := by
    simp only [takeDigits, List.take_left' hlength, takeWhile_isDigit_padded, List.drop_left]
  simp [number?, htake, Decimal.padded_ne_nil, Decimal.ofDigits_padded]

/-- A fraction of up to nine digits is read in nanoseconds. -/
theorem fraction?_padded (hwidth : 0 < width) (hnine : width ≤ 9) (hn : n < powerOfTen width) :
    fraction? ('.' :: Decimal.padded width n) = some (n * powerOfTen (9 - width), []) := by
  have hlength := Decimal.length_padded hwidth hn
  have htake : takeDigits 9 (Decimal.padded width n) = (Decimal.padded width n, []) := by
    simp only [takeDigits, List.take_of_length_le (hlength.trans_le hnine),
      takeWhile_isDigit_padded, List.drop_length]
  simp [fraction?, htake, Decimal.padded_ne_nil, Decimal.ofDigits_padded, hlength]

/-- The same where blanks may stand in front. -/
theorem field?_padded (hwidth : 0 < width) (hn : n < powerOfTen width) (rest : List Char) :
    field? width (Decimal.padded width n ++ rest) = some (n, rest) := by
  rw [field?, trimStart_eq_self fun c hc => ?_, number?_padded hwidth hn]
  rw [List.head?_append_of_ne_nil _ (Decimal.padded_ne_nil width n)] at hc
  exact isBlankChar_of_isDigit (Decimal.isDigit_of_mem_padded (List.mem_of_head? hc))

end Scan

end Text

end Reflex
