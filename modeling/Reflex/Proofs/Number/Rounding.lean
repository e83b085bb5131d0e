import Mathlib.Algebra.Order.Field.Power
import Mathlib.Data.Nat.Log
import Mathlib.Tactic.FieldSimp
import Mathlib.Tactic.Linarith
import Mathlib.Tactic.Ring
import Reflex.Proofs.Number.Double

/-!
# The Error of Rounding

The double nearest to a quotient is finite unless the quotient is half a step above the greatest
finite double, and then it differs from the quotient by half a step of its grid at most. Products
and quotients of doubles are such quotients.

## Main definitions

- `Reflex.Double.magnitude`: the magnitude of a finite double.
- `Reflex.Double.ceiling`: where the range ends.

## Main statements

- `Reflex.Double.exists_ofRatio`: the nearest double to a quotient below the end of the range.
- `Reflex.Double.magnitude_ofRatio`: the relative error for quotients from one on.
- `Reflex.Double.isFinite_mulMagnitude`, `Reflex.Double.isFinite_divMagnitude`.
-/

namespace Reflex

theorem cast_powerOfTwo (n : ℕ) : ((powerOfTwo n : ℕ) : ℚ) = 2 ^ n := by
  rw [powerOfTwo, Nat.pow_eq, Nat.cast_pow, Nat.cast_ofNat]

theorem cast_powerOfTen (n : ℕ) : ((powerOfTen n : ℕ) : ℚ) = 10 ^ n := by
  rw [powerOfTen, Nat.pow_eq, Nat.cast_pow, Nat.cast_ofNat]

theorem powerOfTen_mono {a b : ℕ} (h : a ≤ b) : powerOfTen a ≤ powerOfTen b :=
  Nat.pow_le_pow_right (by decide) h

namespace Double

variable {num den : ℕ} {s : Bool} {x y : Double}

/-! ## Magnitudes -/

/-- The magnitude of a finite double. -/
def magnitude : Double → ℚ
  | .finite _ m e _ => m * 2 ^ e
  | .nan | .infinite _ => 0

/-- Where the range ends: half a step above the greatest finite double. -/
def ceiling : ℚ := (2 ^ 53 - 1 / 2) * 2 ^ 971

theorem magnitude_nonneg (x : Double) : 0 ≤ x.magnitude := by
  cases x with
  | finite s m e h => exact mul_nonneg (Nat.cast_nonneg m) (zpow_nonneg two_pos.le e)
  | nan | infinite => exact le_refl _

theorem magnitude_lt_ceiling (x : Double) : x.magnitude < ceiling := by
  have hpos : 0 < ceiling := by
    unfold ceiling
    positivity
  cases x with
  | finite s m e h =>
    obtain ⟨hm, -, he, -⟩ := h
    have hm : (m : ℚ) ≤ 2 ^ 53 - 1 := by
      rw [le_sub_iff_add_le]
      exact_mod_cast hm
    calc (m : ℚ) * 2 ^ e ≤ (2 ^ 53 - 1) * 2 ^ (971 : ℤ) := by
          gcongr
          norm_num
      _ < ceiling := by
          unfold ceiling
          norm_num
  | nan | infinite => exact hpos

theorem ceiling_lt : ceiling < 2 ^ (1024 : ℤ) := by
  calc ceiling < 2 ^ 53 * 2 ^ 971 := mul_lt_mul_of_pos_right (by norm_num) (by positivity)
    _ = 2 ^ (1024 : ℤ) := by
        rw [← pow_add]
        rfl

theorem natAbs_signed (s : Bool) (n : ℕ) : (signed s n).natAbs = n := by
  cases s <;> simp [signed]

/-- The units of a double are its magnitude, in steps of the least double. -/
theorem natAbs_units {u : ℤ} (h : x.units? = some u) :
    (u.natAbs : ℚ) = x.magnitude * 2 ^ 1074 := by
  cases x with
  | finite s m e hcanonical =>
    obtain rfl := Option.some.inj h
    have he : -1074 ≤ e := hcanonical.2.1
    have hsteps : (2 : ℚ) ^ (e + 1074).toNat = 2 ^ e * 2 ^ 1074 := by
      rw [← zpow_natCast, Int.toNat_of_nonneg (by omega), zpow_add₀ two_ne_zero]
      rfl
    rw [natAbs_signed, Nat.cast_mul, cast_powerOfTwo, hsteps, magnitude, mul_assoc]
  | nan | infinite => cases h

/-! ## Rounding to a grid -/

/-- Rounding moves a quotient by a half at most. -/
theorem abs_roundDiv_sub_le (hden : 0 < den) :
    |(roundDiv num den : ℚ) - num / den| ≤ 1 / 2 := by
  have hdiv : den * (num / den) + num % den = num := Nat.div_add_mod num den
  have hrest : num % den < den := Nat.mod_lt num hden
  have hbounds : 2 * num ≤ 2 * (den * roundDiv num den) + den ∧
      2 * (den * roundDiv num den) ≤ 2 * num + den := by
    have hnext : den * (num / den + 1) = den * (num / den) + den := Nat.mul_succ ..
    unfold roundDiv
    simp only
    (repeat' split) <;> omega
  have hpos : (0 : ℚ) < den := Nat.cast_pos.2 hden
  obtain ⟨hlow, hhigh⟩ := hbounds
  have hlow : 2 * (num : ℚ) ≤ 2 * (den * roundDiv num den) + den := by exact_mod_cast hlow
  have hhigh : 2 * ((den : ℚ) * roundDiv num den) ≤ 2 * num + den := by exact_mod_cast hhigh
  rw [abs_le, neg_le_sub_iff_le_add, sub_le_iff_le_add, div_le_iff₀ hpos, ← sub_le_iff_le_add',
    le_div_iff₀ hpos]
  constructor <;> linarith

theorem scaled_pos (hden : 0 < den) (e : ℤ) : 0 < (scaled num den e).2 := by
  unfold scaled
  split
  · exact Nat.mul_pos hden (powerOfTwo_pos _)
  · exact hden

/-- The quotient over a power of two. -/
theorem scaled_div (num den : ℕ) (e : ℤ) :
    ((scaled num den e).1 : ℚ) / (scaled num den e).2 = num / den / 2 ^ e := by
  unfold scaled
  split
  next he =>
    rw [Nat.cast_mul, cast_powerOfTwo, ← zpow_natCast, Int.toNat_of_nonneg he, div_div]
  next he =>
    show ((num * powerOfTwo (-e).toNat : ℕ) : ℚ) / den = _
    rw [Nat.cast_mul, cast_powerOfTwo, ← zpow_natCast, Int.toNat_of_nonneg (by omega), zpow_neg,
      mul_div_right_comm, div_eq_mul_inv _ ((2 : ℚ) ^ e)]

theorem scaled_lt_iff (hden : 0 < den) (num : ℕ) (e : ℤ) :
    (scaled num den e).1 < (scaled num den e).2 ↔ (num / den : ℚ) < 2 ^ e := by
  have hpos : (0 : ℚ) < (scaled num den e).2 := Nat.cast_pos.2 (scaled_pos hden e)
  calc (scaled num den e).1 < (scaled num den e).2
      ↔ ((scaled num den e).1 : ℚ) < (scaled num den e).2 := Nat.cast_lt.symm
    _ ↔ (num / den / 2 ^ e : ℚ) < 1 := by rw [← div_lt_one₀ hpos, scaled_div]
    _ ↔ (num / den : ℚ) < 2 ^ e := div_lt_one₀ (zpow_pos two_pos e)

/-- The logarithms bound a quotient by powers of two. -/
theorem log2_bounds (hnum : 0 < num) (hden : 0 < den) :
    (2 : ℚ) ^ ((num.log2 : ℤ) - den.log2 - 1) < num / den ∧
      (num / den : ℚ) < 2 ^ ((num.log2 : ℤ) - den.log2 + 1) := by
  have hpos : (0 : ℚ) < den := Nat.cast_pos.2 hden
  have hnumLow : (2 : ℚ) ^ num.log2 ≤ num := by exact_mod_cast Nat.log2_self_le hnum.ne'
  have hnumHigh : (num : ℚ) < 2 ^ (num.log2 + 1) := by exact_mod_cast Nat.lt_log2_self
  have hdenLow : (2 : ℚ) ^ den.log2 ≤ den := by exact_mod_cast Nat.log2_self_le hden.ne'
  have hdenHigh : (den : ℚ) < 2 ^ (den.log2 + 1) := by exact_mod_cast Nat.lt_log2_self
  constructor
  · rw [lt_div_iff₀ hpos]
    calc (2 : ℚ) ^ ((num.log2 : ℤ) - den.log2 - 1) * den
        < 2 ^ ((num.log2 : ℤ) - den.log2 - 1) * 2 ^ (den.log2 + 1) := by gcongr
      _ = 2 ^ num.log2 := by
          rw [← zpow_natCast, ← zpow_natCast, ← zpow_add₀ two_ne_zero]
          congr 1
          omega
      _ ≤ num := hnumLow
  · rw [div_lt_iff₀ hpos]
    calc (num : ℚ) < 2 ^ (num.log2 + 1) := hnumHigh
      _ = 2 ^ ((num.log2 : ℤ) - den.log2 + 1) * 2 ^ den.log2 := by
          rw [← zpow_natCast, ← zpow_natCast, ← zpow_add₀ two_ne_zero]
          congr 1
          omega
      _ ≤ 2 ^ ((num.log2 : ℤ) - den.log2 + 1) * den := by gcongr

/-- The grid leaves 53 bits before the point, but it is never finer than the finest one. -/
theorem gridExponent_spec (hnum : 0 < num) (hden : 0 < den) :
    -1074 ≤ gridExponent num den ∧ (num / den : ℚ) < 2 ^ (gridExponent num den + 53) ∧
      (gridExponent num den = -1074 ∨ (2 : ℚ) ^ (gridExponent num den + 52) ≤ num / den) := by
  obtain ⟨hlow, hhigh⟩ := log2_bounds hnum hden
  obtain ⟨k, hk⟩ : ∃ k : ℤ, (num.log2 : ℤ) - den.log2 = k := ⟨_, rfl⟩
  rw [hk] at hlow hhigh
  obtain ⟨g, hg, hbelow, habove⟩ : ∃ g : ℤ, gridExponent num den = max g (-1074) ∧
      (num / den : ℚ) < 2 ^ (g + 53) ∧ (2 : ℚ) ^ (g + 52) ≤ num / den := by
    by_cases hsmall : (num / den : ℚ) < 2 ^ k
    · refine ⟨k - 53, ?_, by simpa using hsmall, ?_⟩
      · have hscaled := (scaled_lt_iff hden num k).2 hsmall
        simp only [gridExponent, hk, sub_add_cancel, if_pos hscaled]
        omega
      · rw [show k - 53 + 52 = k - 1 by ring]
        exact hlow.le
    · refine ⟨k - 52, ?_, ?_, ?_⟩
      · have hscaled := (scaled_lt_iff hden num k).not.2 hsmall
        simp only [gridExponent, hk, sub_add_cancel, if_neg hscaled]
      · rw [show k - 52 + 53 = k + 1 by ring]
        exact hhigh
      · rw [sub_add_cancel]
        exact not_lt.1 hsmall
  rw [hg]
  refine ⟨le_max_right _ _, hbelow.trans_le ?_, ?_⟩
  · exact zpow_le_zpow_right₀ one_le_two (by omega)
  · rcases le_or_gt g (-1074) with hclamped | hfree
    · exact .inl (max_eq_right hclamped)
    · rw [max_eq_left hfree.le]
      exact .inr habove

/-! ## The nearest double -/

theorem ofRatio_zero (s : Bool) (den : ℕ) : ofRatio s 0 den = zero s := by
  rw [ofRatio, if_pos rfl]

/-- A quotient below the end of the range is half a step of its grid away from a finite double on
the grid. -/
theorem exists_ofRatio (s : Bool) (hnum : 0 < num) (hden : 0 < den)
    (hrange : (num / den : ℚ) < ceiling) : ∃ m e h, ofRatio s num den = .finite s m e h ∧
      gridExponent num den ≤ e ∧
      |(m * 2 ^ e : ℚ) - num / den| ≤ 2 ^ gridExponent num den / 2 := by
  obtain ⟨hleast, hbelow, habove⟩ := gridExponent_spec hnum hden
  obtain ⟨g, hg⟩ : ∃ g, gridExponent num den = g := ⟨_, rfl⟩
  obtain ⟨m, hm⟩ : ∃ m, roundDiv (scaled num den g).1 (scaled num den g).2 = m := ⟨_, rfl⟩
  rw [hg] at hleast hbelow habove ⊢
  have hstep : (0 : ℚ) < 2 ^ g := zpow_pos two_pos g
  have hround : |(m : ℚ) - num / den / 2 ^ g| ≤ 1 / 2 := by
    rw [← hm, ← scaled_div]
    exact abs_roundDiv_sub_le (scaled_pos hden g)
  have herror : |(m * 2 ^ g : ℚ) - num / den| ≤ 2 ^ g / 2 := by
    have hfactor : (m * 2 ^ g : ℚ) - num / den = (m - num / den / 2 ^ g) * 2 ^ g := by
      rw [sub_mul, div_mul_cancel₀ _ hstep.ne']
    rw [hfactor, abs_mul, abs_of_pos hstep]
    linarith [mul_le_mul_of_nonneg_right hround hstep.le]
  obtain ⟨hroundLow, hroundHigh⟩ := abs_le.1 hround
  have hmost : m ≤ 2 ^ 53 := by
    have hbits : (num / den / 2 ^ g : ℚ) < 2 ^ 53 := by
      rw [div_lt_iff₀ hstep, ← zpow_natCast, ← zpow_add₀ two_ne_zero, add_comm]
      exact hbelow
    have hlt : (m : ℚ) < 2 ^ 53 + 1 := by linarith
    exact Nat.lt_succ_iff.1 (by exact_mod_cast hlt)
  have hnormal : g = -1074 ∨ 2 ^ 52 ≤ m := by
    refine habove.imp_right fun habove => ?_
    have hbits : (2 : ℚ) ^ 52 ≤ num / den / 2 ^ g := by
      rw [le_div_iff₀ hstep, ← zpow_natCast, ← zpow_add₀ two_ne_zero, add_comm]
      exact habove
    have hlt : (2 : ℚ) ^ 52 < m + 1 := by linarith
    exact Nat.lt_succ_iff.1 (by exact_mod_cast hlt)
  -- on the coarsest grid the end of the range is not reached
  have hgreatest : g ≤ 970 ∨ g = 971 ∧ m < 2 ^ 53 := by
    rcases lt_trichotomy g 971 with hless | rfl | hgreater
    · exact .inl (by omega)
    · have hbits : (num / den / 2 ^ (971 : ℤ) : ℚ) < 2 ^ 53 - 1 / 2 := by
        rw [div_lt_iff₀ hstep]
        exact hrange
      have hlt : (m : ℚ) < 2 ^ 53 := by linarith
      exact .inr ⟨rfl, by exact_mod_cast hlt⟩
    · have hhuge : (2 : ℚ) ^ (1024 : ℤ) ≤ 2 ^ (g + 52) :=
        zpow_le_zpow_right₀ one_le_two (by omega)
      have hreached := hhuge.trans (habove.resolve_left (by omega))
      exact absurd hreached (not_le.2 (hrange.trans ceiling_lt))
  rw [ofRatio, if_neg hnum.ne']
  simp only [hg, hm]
  by_cases hcarry : m = 0x20000000000000
  · have hcanonical : Canonical 0x10000000000000 (g + 1) :=
      ⟨by decide, by omega, by omega, .inl le_rfl⟩
    simp only [if_pos hcarry, dif_pos hcanonical]
    refine ⟨_, _, hcanonical, rfl, by omega, ?_⟩
    have hsame : ((0x10000000000000 : ℕ) : ℚ) * 2 ^ (g + 1) = m * 2 ^ g := by
      rw [hcarry, zpow_add_one₀ two_ne_zero]
      push_cast
      ring
    rwa [hsame]
  · have hcanonical : Canonical m g := ⟨by omega, hleast, by omega, by omega⟩
    simp only [if_neg hcarry, dif_pos hcanonical]
    exact ⟨m, g, hcanonical, rfl, le_rfl, herror⟩

/-- A quotient below the end of the range is not rounded beyond it. -/
theorem isFinite_ofRatio (s : Bool) (hden : 0 < den) (hrange : (num / den : ℚ) < ceiling) :
    (ofRatio s num den).isFinite = true := by
  rcases num.eq_zero_or_pos with rfl | hnum
  · rw [ofRatio_zero]
    rfl
  · obtain ⟨m, e, h, hround, -⟩ := exists_ofRatio s hnum hden hrange
    rw [hround]
    rfl

/-- From one on a quotient is rounded with a small relative error. -/
theorem magnitude_ofRatio (s : Bool) (hden : 0 < den) (hone : den ≤ num)
    (hrange : (num / den : ℚ) < ceiling) :
    |(ofRatio s num den).magnitude - num / den| ≤ num / den / 2 ^ 53 := by
  have hnum : 0 < num := hden.trans_le hone
  obtain ⟨-, hbelow, habove⟩ := gridExponent_spec hnum hden
  obtain ⟨m, e, h, hround, -, herror⟩ := exists_ofRatio s hnum hden hrange
  have hratio : (1 : ℚ) ≤ num / den := by
    rw [one_le_div₀ (Nat.cast_pos.2 hden)]
    exact Nat.cast_le.2 hone
  have hgrid : (2 : ℚ) ^ (gridExponent num den + 52) ≤ num / den := by
    refine habove.resolve_left fun hleast => ?_
    rw [hleast] at hbelow
    have htiny : (2 : ℚ) ^ (-1074 + 53 : ℤ) ≤ 1 := zpow_le_one_of_nonpos₀ one_le_two (by decide)
    exact absurd hratio (not_le.2 (hbelow.trans_le htiny))
  rw [hround]
  refine herror.trans ?_
  rw [le_div_iff₀ (by positivity)]
  calc (2 : ℚ) ^ gridExponent num den / 2 * 2 ^ 53 = 2 ^ (gridExponent num den + 52) := by
        rw [zpow_add₀ two_ne_zero]
        ring
    _ ≤ num / den := hgrid

/-! ## Products and quotients -/

/-- A product below the end of the range is finite. -/
theorem isFinite_mulMagnitude (s : Bool) (hx : x.isFinite = true) (hy : y.isFinite = true)
    (hrange : x.magnitude * y.magnitude < ceiling) : (mulMagnitude s x y).isFinite = true := by
  obtain ⟨u, hu⟩ := exists_units_of_isFinite hx
  obtain ⟨v, hv⟩ := exists_units_of_isFinite hy
  rw [mulMagnitude, hu, hv]
  refine isFinite_ofRatio s (Nat.mul_pos unitsPerOne_pos unitsPerOne_pos) ?_
  have hsteps : (0 : ℚ) < 2 ^ 1074 := by positivity
  have hone : ((unitsPerOne : ℕ) : ℚ) = 2 ^ 1074 := cast_powerOfTwo 1074
  rw [Nat.cast_mul, Nat.cast_mul, natAbs_units hu, natAbs_units hv, hone, mul_mul_mul_comm,
    mul_div_cancel_right₀ _ (by positivity)]
  exact hrange

/-- A quotient below the end of the range is finite. -/
theorem isFinite_divMagnitude (s : Bool) (hx : x.isFinite = true) (hy : y.isFinite = true)
    (hpos : 0 < y.magnitude) (hrange : x.magnitude / y.magnitude < ceiling) :
    (divMagnitude s x y).isFinite = true := by
  obtain ⟨u, hu⟩ := exists_units_of_isFinite hx
  obtain ⟨v, hv⟩ := exists_units_of_isFinite hy
  have hv0 : (0 : ℚ) < v.natAbs := by
    rw [natAbs_units hv]
    positivity
  rw [divMagnitude, hu, hv]
  refine isFinite_ofRatio s (Nat.cast_pos.1 hv0) ?_
  rw [natAbs_units hu, natAbs_units hv, mul_div_mul_right _ _ (by positivity)]
  exact hrange

end Double

end Reflex
