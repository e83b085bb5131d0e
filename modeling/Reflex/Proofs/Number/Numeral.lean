import Reflex.Proofs.Number.Decimal

/-!
# Integers in Texts

An entered integer is an optional sign and decimal digits, and blanks may stand around it. A text is
read as an integer of 64 bits exactly if it is of this form, and then as the integer that its digits
denote.

## Main definitions

- `Decimal.Numeral`: the texts of integers.

## Main statements

- `Decimal.readInt64?_eq_some_iff`: which texts are read, and as what.
- `Text.trim_append`, `Text.exists_eq_append_trim`: what is left of a text without the blanks around
  it.
-/

namespace Reflex

namespace Decimal

variable {c : Char} {cs rest : List Char} {n : Int}

/-- The texts of integers: decimal digits, after a sign or not. -/
inductive Numeral : List Char → Int → Prop
  -- No sign.
  | plain {ds : List Char} (hne : ds ≠ []) (hdigits : ∀ c ∈ ds, c.isDigit = true) :
      Numeral ds (Nat.ofDigitChars 10 ds 0)
  -- A plus.
  | plus {ds : List Char} (hne : ds ≠ []) (hdigits : ∀ c ∈ ds, c.isDigit = true) :
      Numeral ('+' :: ds) (Nat.ofDigitChars 10 ds 0)
  -- A minus.
  | minus {ds : List Char} (hne : ds ≠ []) (hdigits : ∀ c ∈ ds, c.isDigit = true) :
      Numeral ('-' :: ds) (-(Nat.ofDigitChars 10 ds 0 : Nat))

theorem isDigit_eq (c : Char) : isDigit c = c.isDigit := by
  cases h : c.isDigit with
  | true => exact isDigit_of_char h
  | false =>
    have hnot : ¬ ('0' ≤ c ∧ c ≤ '9') := fun hin => by
      simp only [Char.isDigit, Bool.and_eq_false_iff, decide_eq_false_iff_not] at h
      exact h.elim (· hin.1) (· hin.2)
    rw [isDigit, digit?, if_neg hnot]
    rfl

/-- Nothing but digits may stand after the sign. -/
theorem readInt64?_of_spanSign {negative : Bool} (h : spanSign cs = (negative, rest)) :
    readInt64? cs = some n ↔ rest ≠ [] ∧ (∀ c ∈ rest, c.isDigit = true) ∧
      Double.signed negative (Nat.ofDigitChars 10 rest 0) = n ∧ fitsInt64 n = true := by
  have hspan : spanDigits rest = (rest.takeWhile Char.isDigit, rest.dropWhile Char.isDigit) := by
    rw [spanDigits, funext isDigit_eq]
  unfold readInt64?
  simp only [h, hspan]
  by_cases hdigits : ∀ c ∈ rest, c.isDigit = true
  · rw [List.takeWhile_eq_self_iff.2 hdigits, List.dropWhile_eq_nil_iff.2 hdigits,
      ofDigits_eq_ofDigitChars hdigits]
    rcases eq_or_ne rest [] with rfl | hne
    · simp
    · rw [List.isEmpty_eq_false_iff.2 hne, and_iff_right hne, and_iff_right hdigits]
      generalize Double.signed negative (Nat.ofDigitChars 10 rest 0) = k
      show (if fitsInt64 k = true then some k else none) = some n ↔ _
      rw [Option.ite_none_right_eq_some, Option.some_inj, and_comm]
      exact and_congr_right fun h => by rw [h]
  · have hrest : rest.dropWhile Char.isDigit ≠ [] := fun hnil =>
      hdigits (List.dropWhile_eq_nil_iff.1 hnil)
    simp [hrest, hdigits]

/-- No digit is a sign. -/
theorem spanSign_of_digits (hdigits : ∀ c ∈ cs, c.isDigit = true) : spanSign cs = (false, cs) := by
  unfold spanSign
  split
  next => exact absurd (hdigits '-' (by simp)) (by decide)
  next => exact absurd (hdigits '+' (by simp)) (by decide)
  next => rfl

/-- A text is read exactly if it is that of an integer of 64 bits. -/
theorem readInt64?_eq_some_iff :
    readInt64? cs = some n ↔ Numeral cs n ∧ fitsInt64 n = true := by
  constructor
  · intro h
    obtain ⟨⟨negative, rest⟩, hsign⟩ : ∃ r, spanSign cs = r := ⟨_, rfl⟩
    obtain ⟨hne, hdigits, rfl, hfits⟩ := (readInt64?_of_spanSign hsign).1 h
    refine ⟨?_, hfits⟩
    unfold spanSign at hsign
    split at hsign <;> obtain ⟨rfl, rfl⟩ := Prod.mk.inj hsign
    · exact .minus hne hdigits
    · exact .plus hne hdigits
    · exact .plain hne hdigits
  · rintro ⟨hnumeral, hfits⟩
    cases hnumeral with
    | plain hne hdigits =>
      exact (readInt64?_of_spanSign (spanSign_of_digits hdigits)).2 ⟨hne, hdigits, rfl, hfits⟩
    | plus hne hdigits => exact (readInt64?_of_spanSign rfl).2 ⟨hne, hdigits, rfl, hfits⟩
    | minus hne hdigits => exact (readInt64?_of_spanSign rfl).2 ⟨hne, hdigits, rfl, hfits⟩

theorem Numeral.ne_nil (h : Numeral cs n) : cs ≠ [] := by
  cases h with
  | plain hne => exact hne
  | plus | minus => exact List.cons_ne_nil _ _

/-- There is no blank in the text of an integer. -/
theorem Numeral.isBlankChar_eq_false (h : Numeral cs n) (hc : c ∈ cs) :
    Text.isBlankChar c = false := by
  cases h with
  | plain _ hdigits => exact Text.isBlankChar_of_isDigit (hdigits c hc)
  | plus _ hdigits | minus _ hdigits =>
    rcases List.mem_cons.1 hc with rfl | hc
    · decide
    · exact Text.isBlankChar_of_isDigit (hdigits c hc)

end Decimal

namespace Text

variable {cs before after core : List Char}

theorem trimStart_append (h : ∀ c ∈ before, isBlankChar c = true) :
    trimStart (before ++ cs) = trimStart cs :=
  List.dropWhile_append_of_pos h

/-- The blanks around a text are dropped. -/
theorem trim_append (hbefore : ∀ c ∈ before, isBlankChar c = true)
    (hafter : ∀ c ∈ after, isBlankChar c = true) (hne : core ≠ [])
    (hhead : ∀ c, core.head? = some c → isBlankChar c = false)
    (hlast : ∀ c, core.getLast? = some c → isBlankChar c = false) :
    trim (before ++ core ++ after) = core := by
  have hstart : trimStart (before ++ core ++ after) = core ++ after := by
    rw [List.append_assoc, trimStart_append hbefore]
    refine trimStart_eq_self fun c hc => hhead c ?_
    rwa [List.head?_append_of_ne_nil _ hne] at hc
  rw [trim, hstart, List.reverse_append, trimStart_append (by simpa using hafter),
    trimStart_eq_self (by simpa using hlast), List.reverse_reverse]

/-- Nothing but blanks is dropped. -/
theorem exists_eq_append_trim (cs : List Char) : ∃ before after, cs = before ++ trim cs ++ after ∧
    (∀ c ∈ before, isBlankChar c = true) ∧ ∀ c ∈ after, isBlankChar c = true := by
  refine ⟨cs.takeWhile isBlankChar, ((trimStart cs).reverse.takeWhile isBlankChar).reverse, ?_,
    fun c hc => List.mem_takeWhile_imp hc,
    fun c hc => List.mem_takeWhile_imp (List.mem_reverse.1 hc)⟩
  have hend : (trimStart cs).reverse.takeWhile isBlankChar ++ trimStart (trimStart cs).reverse =
      (trimStart cs).reverse := List.takeWhile_append_dropWhile
  rw [trim, List.append_assoc, ← List.reverse_append, hend, List.reverse_reverse]
  exact List.takeWhile_append_dropWhile.symm

end Text

end Reflex
