import Reflex.Json.Reader
import Reflex.Proofs.Number.Decimal

/-!
# Reading Back Numbers

An integer is read back from its text. What follows a number in a document does not change how the
number is read. A double is not always read back: the reader rounds twice, so that the digits that
determine the double may be read as a neighbour of it.

## Main definitions

- `Json.Ends`: what may follow a part of a document.
- `Double.IsLegible`: a double that is read back from its text.
- `Double.settle`, `Double.IsReadable`: the double that is read instead, and whether there is one.

## Main statements

- `Json.readNumber?_append`: reading a number in a document.
- `Json.spanNumeral?_parts`: the parts that a number was put together from.
- `Json.readNumber?_intText`: an integer that fits into 64 bits is read back.
-/

namespace Reflex

namespace Decimal

/-- The digits of a positive number do not begin with a zero. The induction is on the number
without its last digit. -/
theorem head?_digits_ne (n : Nat) (hn : 0 < n) : (digits n).head? ≠ some '0' := by
  induction n using Nat.strongRecOn with
  | ind n ih =>
    by_cases hsmall : n < 10
    · rw [digits, Nat.toDigits_of_lt_base hsmall]
      have hall : ∀ n : Fin 10, 0 < n.val → [n.val.digitChar].head? ≠ some '0' := by decide
      exact hall ⟨n, hsmall⟩ hn
    · rw [digits, Nat.toDigits_of_base_le (by decide) (by omega),
        List.head?_append_of_ne_nil _ Nat.toDigits_ne_nil]
      exact ih (n / 10) (by omega) (by omega)

theorem ofDigits_digits (n : Nat) : ofDigits (digits n) = n := by
  have hpadded := ofDigits_padded 0 n
  rwa [padded, Nat.zero_sub, List.replicate_zero, List.nil_append] at hpadded

/-- All digits of a number are digits. -/
theorem isDigit_of_mem_digits {n : Nat} {c : Char} (hc : c ∈ digits n) : isDigit c = true :=
  isDigit_of_char (Nat.isDigit_of_mem_toDigits (by decide) (by decide) hc)

end Decimal

/-- A double that the reader of documents gives back from its text. -/
def Double.IsLegible (d : Double) : Prop :=
  Json.readNumber? (Decimal.Layout.scientific.text d).toList = some (.double d, [])

/-- The double that is read from the text of a double. What is not finite has no such text. -/
def Double.settle (d : Double) : Double :=
  match Json.readNumber? (Decimal.Layout.scientific.text d).toList with
  | some (.double read, []) => read
  | _ => d

/-- A double that the reader of documents gives some double for. -/
def Double.IsReadable (d : Double) : Prop :=
  Json.readNumber? (Decimal.Layout.scientific.text d).toList = some (.double d.settle, [])

theorem Double.settle_eq_of_read {d read : Double}
    (h : Json.readNumber? (Decimal.Layout.scientific.text d).toList = some (.double read, [])) :
    d.settle = read := by
  rw [settle, h]

/-- A double that is read back is read, and stays as it is. -/
theorem Double.isLegible_iff {d : Double} : d.IsLegible ↔ d.IsReadable ∧ d.settle = d := by
  constructor
  · intro h
    have hsettle := settle_eq_of_read h
    refine ⟨?_, hsettle⟩
    rw [IsReadable, hsettle]
    exact h
  · rintro ⟨hread, hsettle⟩
    rwa [IsReadable, hsettle] at hread

namespace Json

/-! ## Numbers within documents -/

/-- What may follow a part of a document: a comma, the end of a list or of an object, or nothing. -/
def Ends (rest : List Char) : Prop :=
  ∀ c ∈ rest.head?, c = ',' ∨ c = ']' ∨ c = '\x7d'

theorem ends_nil : Ends [] := by simp [Ends]

variable {cs rest r : List Char}

section Numeral

variable (hrest : Ends rest)
include hrest

theorem Ends.isDigit_eq_false : ∀ c ∈ rest.head?, Decimal.isDigit c = false := by
  intro c hc
  rcases hrest c hc with rfl | rfl | rfl <;> decide

theorem spanDigits_append (cs : List Char) : Decimal.spanDigits (cs ++ rest) =
    ((Decimal.spanDigits cs).1, (Decimal.spanDigits cs).2 ++ rest) := by
  have hhead := hrest.isDigit_eq_false
  induction cs with
  | nil =>
    cases rest with
    | nil => rfl
    | cons c rest => simp [Decimal.spanDigits, hhead c (by simp)]
  | cons c cs ih =>
    simp only [Decimal.spanDigits, Prod.mk.injEq] at ih ⊢
    cases hc : Decimal.isDigit c <;> simp [hc, ih]

theorem spanMinus_append (cs : List Char) :
    spanMinus (cs ++ rest) = ((spanMinus cs).1, (spanMinus cs).2 ++ rest) := by
  cases cs with
  | nil =>
    cases rest with
    | nil => rfl
    | cons c rest => rcases hrest c rfl with rfl | rfl | rfl <;> rfl
  | cons c cs => by_cases hc : c = '-' <;> simp [spanMinus, hc]

theorem spanSign_append (cs : List Char) :
    Decimal.spanSign (cs ++ rest) =
      ((Decimal.spanSign cs).1, (Decimal.spanSign cs).2 ++ rest) := by
  cases cs with
  | nil =>
    cases rest with
    | nil => rfl
    | cons c rest => rcases hrest c rfl with rfl | rfl | rfl <;> rfl
  | cons c cs =>
    by_cases hminus : c = '-'
    · simp [Decimal.spanSign, hminus]
    · by_cases hplus : c = '+' <;> simp [Decimal.spanSign, hminus, hplus]

theorem spanFraction?_append {fraction : List Char} (h : spanFraction? cs = some (fraction, r)) :
    spanFraction? (cs ++ rest) = some (fraction, r ++ rest) := by
  cases cs with
  | nil =>
    obtain ⟨rfl, rfl⟩ := Prod.mk.inj (Option.some.inj h)
    cases rest with
    | nil => rfl
    | cons c rest => rcases hrest c rfl with rfl | rfl | rfl <;> rfl
  | cons c cs =>
    by_cases hpoint : c = '.'
    · subst hpoint
      simp only [spanFraction?, List.cons_append, spanDigits_append hrest] at h ⊢
      split at h
      next => cases h
      next hdigits =>
        obtain ⟨rfl, rfl⟩ := Prod.mk.inj (Option.some.inj h)
        rw [if_neg hdigits]
    · have hnone : ∀ cs, spanFraction? (c :: cs) = some ([], c :: cs) := by
        simp [spanFraction?, hpoint]
      rw [hnone] at h
      obtain ⟨rfl, rfl⟩ := Prod.mk.inj (Option.some.inj h)
      exact hnone _

theorem spanExponent?_append {exponent : Option Int}
    (h : spanExponent? cs = some (exponent, r)) :
    spanExponent? (cs ++ rest) = some (exponent, r ++ rest) := by
  cases cs with
  | nil =>
    obtain ⟨rfl, rfl⟩ := Prod.mk.inj (Option.some.inj h)
    cases rest with
    | nil => rfl
    | cons c rest => rcases hrest c rfl with rfl | rfl | rfl <;> rfl
  | cons c cs =>
    by_cases hmark : c = 'e' ∨ c = 'E'
    · rcases hmark with rfl | rfl <;>
      · simp only [spanExponent?, List.cons_append, spanSign_append hrest,
          spanDigits_append hrest] at h ⊢
        split at h
        next => cases h
        next hdigits =>
          obtain ⟨rfl, rfl⟩ := Prod.mk.inj (Option.some.inj h)
          rw [if_neg hdigits]
    · rw [not_or] at hmark
      have hnone : ∀ cs, spanExponent? (c :: cs) = some (none, c :: cs) := by
        simp [spanExponent?, hmark]
      rw [hnone] at h
      obtain ⟨rfl, rfl⟩ := Prod.mk.inj (Option.some.inj h)
      exact hnone _

theorem spanNumeral?_append {n : Numeral} (h : spanNumeral? cs = some (n, r)) :
    spanNumeral? (cs ++ rest) = some (n, r ++ rest) := by
  simp only [spanNumeral?, spanMinus_append hrest, spanDigits_append hrest] at h ⊢
  split at h
  next => cases h
  next hwhole =>
    rw [if_neg hwhole]
    simp only [Option.bind_eq_bind, Option.bind_eq_some_iff] at h
    obtain ⟨⟨fraction, afterFraction⟩, hfraction, ⟨exponent, afterExponent⟩, hexponent, heq⟩ := h
    obtain ⟨rfl, rfl⟩ := Prod.mk.inj (Option.some.inj heq)
    simp [spanFraction?_append hrest hfraction, spanExponent?_append hrest hexponent]

/-- A number is read in a document as it is read alone. -/
theorem readNumber?_append {j : Json} (h : readNumber? cs = some (j, r)) :
    readNumber? (cs ++ rest) = some (j, r ++ rest) := by
  simp only [readNumber?, Option.bind_eq_bind, Option.bind_eq_some_iff] at h
  obtain ⟨⟨n, left⟩, hn, value, hvalue, heq⟩ := h
  obtain ⟨rfl, rfl⟩ := Prod.mk.inj (Option.some.inj heq)
  rw [readNumber?, spanNumeral?_append hrest hn]
  simp [hvalue]

end Numeral

/-- A number begins with a minus sign or a digit. -/
theorem head_of_readNumber? {j : Json} (h : readNumber? cs = some (j, r)) :
    ∃ c tail, cs = c :: tail ∧ (c = '-' ∨ Decimal.isDigit c = true) := by
  cases cs with
  | nil => cases h
  | cons c tail =>
    refine ⟨c, tail, rfl, ?_⟩
    by_contra hc
    rw [not_or, Bool.not_eq_true] at hc
    -- without a digit in front there is no whole part
    have hnone : spanNumeral? (c :: tail) = none := by
      simp [spanNumeral?, spanMinus, Decimal.spanDigits, hc]
    rw [readNumber?, hnone] at h
    cases h

/-! ## Integers -/

namespace Number

/-- The number that digits denote after others. -/
def shifted (significand : Nat) (ds : List Char) : Nat :=
  ds.foldl (fun acc c => acc * 10 + (Decimal.digit? c).getD 0) significand

theorem le_shifted (significand : Nat) (ds : List Char) : significand ≤ shifted significand ds := by
  induction ds generalizing significand with
  | nil => exact Nat.le_refl _
  | cons c ds ih =>
    refine Nat.le_trans ?_ (ih (significand * 10 + (Decimal.digit? c).getD 0))
    omega

/-- Digits that fit are all taken. -/
theorem accumulate_eq (significand : Nat) (ds : List Char)
    (hfits : shifted significand ds ≤ maxSignificand) :
    accumulate significand ds = (shifted significand ds, ds.length) := by
  induction ds generalizing significand with
  | nil => rfl
  | cons c ds ih =>
    have hnext : ¬ maxSignificand < significand * 10 + (Decimal.digit? c).getD 0 :=
      Nat.not_lt.2 (Nat.le_trans (le_shifted _ ds) hfits)
    rw [accumulate, if_neg hnext, ih _ hfits]
    rfl

end Number

/-! ## The parts of a number -/

/-- Digits are taken up to what is no digit. -/
theorem spanDigits_eq {ds : List Char} (hds : ∀ c ∈ ds, Decimal.isDigit c = true)
    (hrest : ∀ c ∈ rest.head?, Decimal.isDigit c = false) :
    Decimal.spanDigits (ds ++ rest) = (ds, rest) := by
  have htail : rest.takeWhile Decimal.isDigit = [] ∧ rest.dropWhile Decimal.isDigit = rest := by
    cases rest with
    | nil => exact ⟨rfl, rfl⟩
    | cons c rest => simp [hrest c rfl]
  rw [Decimal.spanDigits, List.takeWhile_append_of_pos hds, List.dropWhile_append_of_pos hds,
    htail.1, htail.2, List.append_nil]

/-- The digits behind a point, with the point. -/
def pointed (fraction : List Char) : List Char :=
  if fraction = [] then [] else '.' :: fraction

section Parts

variable {whole fraction : List Char} {exponent : Option Int}
  (hrest : ∀ c ∈ rest.head?, Decimal.isDigit c = false ∧ c ≠ '.')
include hrest

theorem spanFraction?_pointed (hfraction : ∀ c ∈ fraction, Decimal.isDigit c = true) :
    spanFraction? (pointed fraction ++ rest) = some (fraction, rest) := by
  unfold pointed
  split
  next hempty =>
    subst hempty
    cases rest with
    | nil => rfl
    | cons c rest =>
      obtain ⟨-, hpoint⟩ := hrest c rfl
      simp [spanFraction?, hpoint]
  next hne =>
    rw [List.cons_append, spanFraction?, spanDigits_eq hfraction fun c hc => (hrest c hc).1]
    simp [hne]

/-- A number is split into the parts that it was put together from. -/
theorem spanNumeral?_parts (negative : Bool) (hne : whole ≠ [])
    (hwhole : ∀ c ∈ whole, Decimal.isDigit c = true)
    (hzero : whole.head? = some '0' → whole.length = 1)
    (hfraction : ∀ c ∈ fraction, Decimal.isDigit c = true)
    (hexponent : spanExponent? rest = some (exponent, [])) :
    spanNumeral? ((if negative then ['-'] else []) ++ (whole ++ (pointed fraction ++ rest))) =
      some ({ negative, whole, fraction, exponent }, []) := by
  have hafter : ∀ c ∈ (pointed fraction ++ rest).head?, Decimal.isDigit c = false := by
    unfold pointed
    split
    · exact fun c hc => (hrest c hc).1
    · rintro c ⟨⟩
      rfl
  have hminus : spanMinus
      ((if negative then ['-'] else []) ++ (whole ++ (pointed fraction ++ rest))) =
        (negative, whole ++ (pointed fraction ++ rest)) := by
    cases negative with
    | true => rfl
    | false =>
      cases whole with
      | nil => exact absurd rfl hne
      | cons c whole =>
        have hsign : c ≠ '-' := by
          rintro rfl
          cases hwhole _ List.mem_cons_self
        simp [spanMinus, hsign]
  have hlead : (whole.isEmpty || (whole.head? == some '0' && whole.length != 1)) = false := by
    simpa [hne] using hzero
  simp only [spanNumeral?, hminus, spanDigits_eq hwhole hafter, hlead,
    spanFraction?_pointed hrest hfraction, hexponent, Bool.false_eq_true, if_false,
    Option.bind_eq_bind, Option.bind_some]
  rfl

end Parts

/-- The digits of a number have no further parts. -/
theorem spanNumeral?_digits (n : Nat) (negative : Bool) :
    spanNumeral? ((if negative then ['-'] else []) ++ Decimal.digits n) =
      some ({ negative, whole := Decimal.digits n, fraction := [], exponent := none }, []) := by
  have hzero : (Decimal.digits n).head? = some '0' → (Decimal.digits n).length = 1 := by
    intro hhead
    obtain rfl : n = 0 := Nat.eq_zero_of_not_pos fun hn => Decimal.head?_digits_ne n hn hhead
    rfl
  have hdigits : ∀ c ∈ Decimal.digits n, Decimal.isDigit c = true :=
    fun _ => Decimal.isDigit_of_mem_digits
  have htext : (if negative then ['-'] else []) ++ Decimal.digits n =
      (if negative then ['-'] else []) ++ (Decimal.digits n ++ (pointed [] ++ [])) := by
    simp [pointed]
  rw [htext]
  exact spanNumeral?_parts (by simp) negative Nat.toDigits_ne_nil hdigits hzero (by simp) rfl

/-- An integer that fits into 64 bits is read back. -/
theorem readNumber?_intText {n : Int} (hfits : fitsInt n) :
    readNumber? (Decimal.intText n).toList = some (.int n, []) := by
  obtain ⟨hlow, hhigh⟩ := hfits
  have htext : (Decimal.intText n).toList =
      (if decide (n < 0) then ['-'] else []) ++ Decimal.digits n.natAbs := by
    unfold Decimal.intText
    by_cases hn : n < 0 <;> simp [hn]
  have hnumber : Number.shifted 0 (Decimal.digits n.natAbs) = n.natAbs :=
    Decimal.ofDigits_digits n.natAbs
  have haccumulate : Number.accumulate 0 (Decimal.digits n.natAbs) =
      (n.natAbs, (Decimal.digits n.natAbs).length) := by
    rw [Number.accumulate_eq, hnumber]
    rw [hnumber, Number.maxSignificand]
    unfold Word.half at hlow
    unfold Word.size at hhigh ⊢
    omega
  rw [readNumber?, htext, spanNumeral?_digits]
  simp only [Option.bind_eq_bind, Option.bind_some, Numeral.value?, haccumulate, Nat.sub_self]
  by_cases hn : n < 0
  · have hzero : n.natAbs ≠ 0 := by omega
    have hhalf : n.natAbs ≤ Word.half := by omega
    have hvalue : -(n.natAbs : Int) = n := by omega
    generalize n.natAbs = m at hzero hhalf hvalue ⊢
    simp [hn, hzero, hhalf, hvalue]
  · have hvalue : (n.natAbs : Int) = n := by omega
    generalize n.natAbs = m at hvalue ⊢
    simp [hn, hvalue]

end Json

end Reflex
