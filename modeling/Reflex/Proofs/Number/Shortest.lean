import Mathlib.Data.Nat.Cast.Order.Field
import Reflex.Proofs.Json.Number
import Reflex.Proofs.Number.Rounding

/-!
# Shortest Digits

The digits that are written for a positive double begin with another digit than zero, and they
denote no more than the greatest number that is rounded to the double.

## Main definitions

- `Reflex.Decimal.Significant`: digits without a zero in front.

## Main statements

- `Reflex.Decimal.significant_shortest`, `Reflex.Decimal.shortest_le`.
-/

namespace Reflex.Decimal

variable {m : ℕ} {e : ℤ} {tieUp : Bool}

/-! ## Powers of ten and two -/

theorem overPower_pos (m : ℕ) (e place : ℤ) : 0 < (overPower m e place).2 := by
  unfold overPower
  simp only
  (repeat' split) <;> simp [powerOfTwo, powerOfTen]

/-- The value of a double over a power of ten. -/
theorem overPower_div (m : ℕ) (e place : ℤ) :
    ((overPower m e place).1 : ℚ) / (overPower m e place).2 = m * 2 ^ e / 10 ^ place := by
  have hup : ∀ (b : ℚ) (k : ℤ), 0 ≤ k → b ^ k.toNat = b ^ k := by
    intro b k hk
    rw [← zpow_natCast, Int.toNat_of_nonneg hk]
  have hdown : ∀ (b : ℚ) (k : ℤ), ¬ 0 ≤ k → b ^ (-k).toNat = (b ^ k)⁻¹ := by
    intro b k hk
    rw [hup b (-k) (by omega), zpow_neg]
  unfold overPower
  by_cases he : 0 ≤ e <;> by_cases hplace : 0 ≤ place <;>
    simp only [he, hplace, if_true, if_false, Nat.cast_mul, Nat.cast_one, cast_powerOfTwo,
      cast_powerOfTen, hup, hdown, not_false_eq_true] <;>
    field_simp

/-- Powers of ten and of two, compared by the exponents: three digits take less than ten bits, and
four digits more than thirteen bits. -/
theorem ten_zpow_le_two_zpow {a b : ℤ} (hup : 10 * a ≤ 3 * b) (hdown : 13 * a ≤ 4 * b) :
    (10 : ℚ) ^ a ≤ 2 ^ b := by
  have hten : (0 : ℚ) < 10 ^ a := zpow_pos (by norm_num) a
  have htwo : (0 : ℚ) < 2 ^ b := zpow_pos (by norm_num) b
  rcases le_or_gt 0 a with ha | ha
  · refine (zpow_le_zpow_iff_left₀ hten.le htwo.le (n := 3) (by decide)).1 ?_
    calc ((10 : ℚ) ^ a) ^ (3 : ℤ) = (10 ^ (3 : ℤ)) ^ a := zpow_comm ..
      _ ≤ (2 ^ (10 : ℤ)) ^ a := zpow_le_zpow_left₀ ha (by norm_num) (by norm_num)
      _ = 2 ^ (10 * a) := (zpow_mul ..).symm
      _ ≤ 2 ^ (b * 3) := zpow_le_zpow_right₀ one_le_two (by omega)
      _ = (2 ^ b) ^ (3 : ℤ) := zpow_mul ..
  · refine (zpow_le_zpow_iff_left₀ hten.le htwo.le (n := 4) (by decide)).1 ?_
    have hinv : ∀ c : ℚ, c ^ a = (c ^ (-a))⁻¹ := fun c => by rw [zpow_neg, inv_inv]
    calc ((10 : ℚ) ^ a) ^ (4 : ℤ) = (10 ^ (4 : ℤ)) ^ a := zpow_comm ..
      _ = ((10 ^ (4 : ℤ)) ^ (-a))⁻¹ := hinv _
      _ ≤ ((2 ^ (13 : ℤ)) ^ (-a))⁻¹ := by
          gcongr ?_⁻¹
          exact zpow_le_zpow_left₀ (by omega) (by norm_num) (by norm_num)
      _ = (2 ^ (13 : ℤ)) ^ a := (hinv _).symm
      _ = 2 ^ (13 * a) := (zpow_mul ..).symm
      _ ≤ 2 ^ (b * 4) := zpow_le_zpow_right₀ one_le_two (by omega)
      _ = (2 ^ b) ^ (4 : ℤ) := zpow_mul ..

/-! ## The search for the digits -/

section Search

/-- What is searched for: a number that is not zero and not above those that are rounded to the
double. -/
def IsCandidate (m : ℕ) (e : ℤ) (r : ℕ × ℤ) : Prop :=
  0 < r.1 ∧ (r.1 * 10 ^ r.2 : ℚ) ≤ (m + 1 / 2) * 2 ^ e

variable {place : ℤ} {candidate : ℕ}

/-- What reads back is not above the interval. -/
theorem le_of_readsBack (h : readsBack m e place candidate = true) :
    (candidate * 10 ^ place : ℚ) ≤ (m + 1 / 2) * 2 ^ e := by
  have hplace : (0 : ℚ) < 10 ^ place := zpow_pos (by norm_num) place
  have hpos := overPower_pos (roundingInterval m e).2 (e - 2) place
  have hhigh : candidate * (overPower (roundingInterval m e).2 (e - 2) place).2 ≤
      (overPower (roundingInterval m e).2 (e - 2) place).1 := by
    unfold readsBack at h
    simp only at h
    split at h
    all_goals
      rw [Bool.and_eq_true, decide_eq_true_iff, decide_eq_true_iff] at h
      omega
  have hle : (candidate : ℚ) ≤ ((4 * m + 2 : ℕ) : ℚ) * 2 ^ (e - 2) / 10 ^ place := by
    rw [← overPower_div, le_div_iff₀ (Nat.cast_pos.2 hpos)]
    exact_mod_cast hhigh
  calc (candidate * 10 ^ place : ℚ) ≤ ((4 * m + 2 : ℕ) : ℚ) * 2 ^ (e - 2) :=
        (le_div_iff₀ hplace).1 hle
    _ = (m + 1 / 2) * 2 ^ e := by
        rw [zpow_sub₀ two_ne_zero]
        push_cast
        norm_num
        ring

theorem isCandidate_of_onGrid? (h : onGrid? tieUp m e place = some candidate) :
    IsCandidate m e (candidate, place) := by
  unfold onGrid? at h
  simp only at h
  split at h
  next hbelow habove =>
    rw [Bool.and_eq_true, decide_eq_true_iff] at hbelow
    obtain rfl := Option.some.inj h
    split
    · exact ⟨Nat.succ_pos _, le_of_readsBack habove⟩
    · exact ⟨Nat.pos_of_ne_zero hbelow.2, le_of_readsBack hbelow.1⟩
  next hbelow _ =>
    rw [Bool.and_eq_true, decide_eq_true_iff] at hbelow
    obtain rfl := Option.some.inj h
    exact ⟨Nat.pos_of_ne_zero hbelow.2, le_of_readsBack hbelow.1⟩
  next _ habove =>
    obtain rfl := Option.some.inj h
    exact ⟨Nat.succ_pos _, le_of_readsBack habove⟩
  next => cases h

/-- What is left of the double on a grid that it reaches. -/
theorem isCandidate_roundDown (hreach : (10 : ℚ) ^ place ≤ m * 2 ^ e) :
    IsCandidate m e (searchGrids.roundDown m e place, place) := by
  have hplace : (0 : ℚ) < 10 ^ place := zpow_pos (by norm_num) place
  have hstep : (0 : ℚ) < 2 ^ e := zpow_pos two_pos e
  have hpos := overPower_pos m e place
  have hquotient := overPower_div m e place
  constructor
  · refine Nat.div_pos ?_ hpos
    rw [← Nat.cast_le (α := ℚ), ← one_le_div₀ (Nat.cast_pos.2 hpos), hquotient,
      one_le_div₀ hplace]
    exact hreach
  · have hle : (searchGrids.roundDown m e place : ℚ) ≤ m * 2 ^ e / 10 ^ place := by
      rw [← hquotient]
      exact Nat.cast_div_le
    calc (searchGrids.roundDown m e place * 10 ^ place : ℚ) ≤ m * 2 ^ e :=
          (le_div_iff₀ hplace).1 hle
      _ ≤ (m + 1 / 2) * 2 ^ e := by
          gcongr
          linarith

/-- The search ends with a candidate, if the double reaches the last grid. -/
theorem isCandidate_searchGrids (tieUp : Bool) (count : ℕ) (place : ℤ)
    (hreach : (10 : ℚ) ^ (place - count) ≤ m * 2 ^ e) :
    IsCandidate m e (searchGrids tieUp m e count place) := by
  induction count generalizing place with
  | zero =>
    rw [Nat.cast_zero, sub_zero] at hreach
    exact isCandidate_roundDown hreach
  | succ count ih =>
    rw [searchGrids]
    split
    next hfound => exact isCandidate_of_onGrid? hfound
    next =>
      apply ih
      rwa [sub_sub, add_comm, ← Nat.cast_succ]

/-- The double reaches the last grid. -/
theorem reaches_last (hm : 0 < m) (h : Double.Canonical m e) :
    (10 : ℚ) ^ (decimalExponent m e - 17) ≤ m * 2 ^ e := by
  obtain ⟨hbits, hlow, hhigh, -⟩ := h
  have hreaches : ∀ p, (overPower m e p).2 ≤ (overPower m e p).1 →
      (10 : ℚ) ^ (p - 17) ≤ m * 2 ^ e := by
    intro p hp
    have hpower : (0 : ℚ) < 10 ^ p := zpow_pos (by norm_num) p
    rw [← Nat.cast_le (α := ℚ), ← one_le_div₀ (Nat.cast_pos.2 (overPower_pos m e p)),
      overPower_div, one_le_div₀ hpower] at hp
    exact (zpow_le_zpow_right₀ (by norm_num) (by omega)).trans hp
  have hlog : m.log2 < 53 := (Nat.log2_lt hm.ne').2 hbits
  unfold decimalExponent
  simp only
  split
  next h => exact hreaches _ (of_decide_eq_true h)
  next =>
    split
    next h => exact hreaches _ (of_decide_eq_true h)
    next =>
      -- the guess is not far above the logarithm
      calc (10 : ℚ) ^ (((m.log2 : ℤ) + e) * 30103 / 100000 - 1 - 17) ≤ 2 ^ ((m.log2 : ℤ) + e) :=
            ten_zpow_le_two_zpow (by omega) (by omega)
        _ = 2 ^ m.log2 * 2 ^ e := by rw [zpow_add₀ two_ne_zero, zpow_natCast]
        _ ≤ m * 2 ^ e := by
            gcongr
            exact_mod_cast Nat.log2_self_le hm.ne'

end Search

/-! ## Digits -/

/-- The digits of a positive number. -/
structure Significant (ds : List Char) : Prop where
  /-- All of them are digits. -/
  isDigit : ∀ c ∈ ds, isDigit c = true
  /-- There is a first one, and it is not zero. -/
  head : ∃ c rest, ds = c :: rest ∧ c ≠ '0'

/-- Only zeros are dropped. -/
theorem exists_eq_dropTrailingZeros (ds : List Char) :
    ∃ k, ds = dropTrailingZeros ds ++ List.replicate k '0' := by
  refine ⟨(ds.reverse.takeWhile (· == '0')).length, ?_⟩
  have hzeros : (ds.reverse.takeWhile (· == '0')).reverse =
      List.replicate (ds.reverse.takeWhile (· == '0')).length '0' := by
    rw [List.eq_replicate_iff, List.length_reverse]
    refine ⟨rfl, fun c hc => ?_⟩
    have hzero := List.mem_takeWhile_imp (List.mem_reverse.1 hc)
    exact eq_of_beq hzero
  rw [← hzeros, dropTrailingZeros, ← List.reverse_append, List.takeWhile_append_dropWhile,
    List.reverse_reverse]

theorem ofDigits_append_zeros (ds : List Char) (k : ℕ) :
    ofDigits (ds ++ List.replicate k '0') = ofDigits ds * 10 ^ k := by
  induction k with
  | zero => simp
  | succ k ih =>
    rw [List.replicate_succ', ← List.append_assoc, ofDigits, List.foldl_append]
    show ofDigits (ds ++ List.replicate k '0') * 10 + 0 = _
    rw [ih, pow_succ, mul_assoc, add_zero]

theorem significant_dropTrailingZeros {n : ℕ} (hn : 0 < n) :
    Significant (dropTrailingZeros (digits n)) := by
  obtain ⟨k, hk⟩ := exists_eq_dropTrailingZeros (digits n)
  have hfirst := head?_digits_ne n hn
  constructor
  · intro c hc
    refine isDigit_of_mem_digits (n := n) ?_
    rw [hk]
    exact List.mem_append_left _ hc
  · cases hds : dropTrailingZeros (digits n) with
    | nil =>
      rw [hk, hds, List.nil_append] at hfirst
      cases k with
      | zero =>
        rw [hds] at hk
        exact absurd hk Nat.toDigits_ne_nil
      | succ k => exact absurd rfl hfirst
    | cons c rest =>
      refine ⟨c, rest, rfl, ?_⟩
      rintro rfl
      rw [hk, hds] at hfirst
      exact hfirst rfl

section Shortest

variable (tieUp : Bool) (hm : 0 < m) (h : Double.Canonical m e)
include hm h

theorem isCandidate_shortest :
    IsCandidate m e (searchGrids tieUp m e 17 (decimalExponent m e)) :=
  isCandidate_searchGrids tieUp 17 _ (reaches_last hm h)

/-- The digits that are written are those of a positive number. -/
theorem significant_shortest : Significant (shortest tieUp m e).1 :=
  significant_dropTrailingZeros (isCandidate_shortest tieUp hm h).1

/-- They denote no more than the greatest number that is rounded to the double. -/
theorem shortest_le :
    (ofDigits (shortest tieUp m e).1 *
      10 ^ ((shortest tieUp m e).2 + 1 - (shortest tieUp m e).1.length) : ℚ) ≤
        (m + 1 / 2) * 2 ^ e := by
  have hcandidate := isCandidate_shortest tieUp hm h
  obtain ⟨r, hr⟩ : ∃ r, searchGrids tieUp m e 17 (decimalExponent m e) = r := ⟨_, rfl⟩
  obtain ⟨k, hk⟩ := exists_eq_dropTrailingZeros (digits r.1)
  have hvalue : r.1 = ofDigits (dropTrailingZeros (digits r.1)) * 10 ^ k := by
    rw [← ofDigits_append_zeros, ← hk, ofDigits_digits]
  have hlength : (digits r.1).length = (dropTrailingZeros (digits r.1)).length + k := by
    conv_lhs => rw [hk]
    rw [List.length_append, List.length_replicate]
  rw [hr] at hcandidate
  simp only [shortest, hr]
  refine le_trans (le_of_eq ?_) hcandidate.2
  conv_rhs => rw [hvalue]
  rw [hlength]
  push_cast
  rw [mul_assoc, ← zpow_natCast, ← zpow_add₀ (by norm_num)]
  congr 2
  omega

end Shortest

end Reflex.Decimal
