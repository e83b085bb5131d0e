import Reflex.Proofs.Number.Rounding

/-!
# The Nearest Double

A quotient is rounded to the nearest double: no finite double is nearer to it. So no double lies
between an integer and the double that it is rounded to, and an integer compares with a double in
the order of the two numbers, unless it is rounded to this very double.

## Main definitions

- `Reflex.Double.toRat?`: the number that a finite double is.
- `Reflex.Double.roundedOrder`: the order of an integer and a number when the integer is rounded.

## Main statements

- `Reflex.Double.compare?_of_toRat?`, `Reflex.Double.toInt?_eq_some_iff`: doubles as numbers.
- `Reflex.Double.abs_magnitude_ofRatio_sub_le`: no double is nearer to a quotient than its rounding.
- `Reflex.Double.toRat?_ofInt_of_le`: integers up to `2 ^ 53` are doubles.
- `Reflex.Double.compare?_ofInt`: what becomes of the order of an integer and a double.
-/

namespace Reflex.Double

variable {num den : ℕ} {n : ℤ} {p q : ℚ} {x y : Double}

/-! ## Doubles as numbers -/

/-- The number that a finite double is. -/
def toRat? : Double → Option ℚ
  | .finite negative m e _ => some (if negative then -(m * 2 ^ e) else m * 2 ^ e)
  | .nan | .infinite _ => none

theorem isFinite_iff_exists_toRat? : x.isFinite = true ↔ ∃ q, x.toRat? = some q := by
  cases x with
  | finite => exact ⟨fun _ => ⟨_, rfl⟩, fun _ => rfl⟩
  | nan | infinite => simp [isFinite, toRat?]

theorem abs_of_toRat? (h : x.toRat? = some q) : |q| = x.magnitude := by
  cases x with
  | finite s m e hcanonical =>
    have hnonneg := magnitude_nonneg (.finite s m e hcanonical)
    obtain rfl := Option.some.inj h
    cases s with
    | false => exact abs_of_nonneg hnonneg
    | true => exact (abs_neg _).trans (abs_of_nonneg hnonneg)
  | nan | infinite => cases h

/-- The number of a double is counted by its units. -/
theorem exists_units_of_toRat? (h : x.toRat? = some q) :
    ∃ u, x.units? = some u ∧ (u : ℚ) = q * unitsPerOne := by
  cases x with
  | finite s m e hcanonical =>
    obtain rfl := Option.some.inj h
    refine ⟨_, rfl, ?_⟩
    have hleast : -1074 ≤ e := hcanonical.2.1
    have hunits : ((m * powerOfTwo (e + 1074).toNat : ℕ) : ℚ) = m * 2 ^ e * unitsPerOne := by
      rw [Nat.cast_mul, unitsPerOne, cast_powerOfTwo, cast_powerOfTwo, mul_assoc,
        ← zpow_natCast, ← zpow_natCast, ← zpow_add₀ two_ne_zero, Int.toNat_of_nonneg (by omega)]
      rfl
    cases s with
    | false => exact_mod_cast hunits
    | true =>
      show ((-((m * powerOfTwo (e + 1074).toNat : ℕ) : ℤ) : ℤ) : ℚ) = _
      rw [Int.cast_neg, Int.cast_natCast, hunits]
      exact (neg_mul _ _).symm
  | nan | infinite => cases h

/-- Doubles are ordered as numbers. -/
theorem compare?_of_toRat? (hx : x.toRat? = some p) (hy : y.toRat? = some q) :
    x.compare? y = some (compare p q) := by
  obtain ⟨u, hu, hup⟩ := exists_units_of_toRat? hx
  obtain ⟨v, hv, hvq⟩ := exists_units_of_toRat? hy
  have hpos : (0 : ℚ) < unitsPerOne := Nat.cast_pos.2 unitsPerOne_pos
  have hsame : compare u v = compare p q := by
    calc compare u v = cmp u v := (cmp_eq_compare u v).symm
      _ = cmp (u : ℚ) v := (Int.cast_strictMono.cmp_map_eq u v).symm
      _ = cmp (p * unitsPerOne) (q * unitsPerOne) := by rw [hup, hvq]
      _ = cmp p q := cmp_mul_pos_right hpos p q
      _ = compare p q := cmp_eq_compare p q
  rw [compare?, position?_of_units hu, position?_of_units hv, ← hsame]
  rfl

/-- The integer of a double is the number of it. -/
theorem toInt?_eq_some_iff : x.toInt? = some n ↔ x.toRat? = some (n : ℚ) := by
  have hpos : (0 : ℚ) < unitsPerOne := Nat.cast_pos.2 unitsPerOne_pos
  cases hx : x.toRat? with
  | none =>
    have hunits : x.units? = none := by
      cases x with
      | finite => cases hx
      | nan | infinite => rfl
    simp [toInt?, hunits]
  | some q =>
    obtain ⟨u, hu, huq⟩ := exists_units_of_toRat? hx
    have hwhole : q = n ↔ u = n * unitsPerOne := by
      rw [← mul_left_inj' hpos.ne', ← huq]
      exact_mod_cast Iff.rfl
    have hone : (unitsPerOne : ℤ) ≠ 0 := by exact_mod_cast unitsPerOne_pos.ne'
    rw [toInt?, hu, Option.some_inj, hwhole]
    show (if u % unitsPerOne = 0 then some (u / unitsPerOne) else none) = some n ↔ _
    constructor
    · intro h
      split at h
      next hmod =>
        rw [← Option.some.inj h]
        exact (Int.ediv_mul_cancel (Int.dvd_of_emod_eq_zero hmod)).symm
      next => cases h
    · rintro rfl
      rw [if_pos (Int.mul_emod_left ..), Int.mul_ediv_cancel _ hone]

/-! ## The grid around a quotient -/

section Grid

/-- Of the points of a grid one that is half a step away from a number is nearest to it. -/
theorem abs_sub_le_of_grid {a b : ℕ} {g : ℤ} (h : |(a * 2 ^ g : ℚ) - q| ≤ 2 ^ g / 2) :
    |(a * 2 ^ g : ℚ) - q| ≤ |(b * 2 ^ g : ℚ) - q| := by
  rcases eq_or_ne a b with rfl | hne
  · exact le_rfl
  have hstep : (0 : ℚ) < 2 ^ g := zpow_pos two_pos g
  have hapart : (2 : ℚ) ^ g ≤ |(a * 2 ^ g : ℚ) - b * 2 ^ g| := by
    have hone : (1 : ℚ) ≤ |(a : ℚ) - b| := by
      have hint : (1 : ℤ) ≤ |(a : ℤ) - b| := Int.one_le_abs (by omega)
      exact_mod_cast hint
    rw [← sub_mul, abs_mul, abs_of_pos hstep]
    exact le_mul_of_one_le_left hstep.le hone
  have htriangle := abs_sub_le (a * 2 ^ g : ℚ) q (b * 2 ^ g)
  rw [abs_sub_comm q] at htriangle
  linarith

/-- The magnitude of a double on a grid is one of its points. -/
theorem exists_point {m : ℕ} {e g : ℤ} (h : g ≤ e) : ∃ k : ℕ, (m * 2 ^ e : ℚ) = k * 2 ^ g := by
  refine ⟨m * 2 ^ (e - g).toNat, ?_⟩
  rw [Nat.cast_mul, Nat.cast_pow, Nat.cast_ofNat, ← zpow_natCast, Int.toNat_of_nonneg (by omega),
    mul_assoc, ← zpow_add₀ two_ne_zero, sub_add_cancel]

/-- A double is on the grid around a quotient, unless it is below the least number that has this
grid, and then so is the quotient not. -/
theorem exists_point_or_le (hnum : 0 < num) (hden : 0 < den) (y : Double) :
    (∃ k : ℕ, y.magnitude = k * 2 ^ gridExponent num den) ∨
      y.magnitude ≤ 2 ^ (gridExponent num den + 52) ∧
        (2 : ℚ) ^ (gridExponent num den + 52) ≤ num / den := by
  obtain ⟨-, -, habove⟩ := gridExponent_spec hnum hden
  obtain ⟨g, hg⟩ : ∃ g, gridExponent num den = g := ⟨_, rfl⟩
  rw [hg] at habove ⊢
  cases y with
  | nan | infinite => exact .inl ⟨0, by simp [magnitude]⟩
  | finite s m e h =>
    rcases le_or_gt g e with hge | hlt
    · exact .inl (exists_point hge)
    · obtain ⟨hm, hleast, -, -⟩ := h
      refine .inr ⟨?_, habove.resolve_left (by omega)⟩
      have hm : (m : ℚ) ≤ 2 ^ 53 := by exact_mod_cast hm.le
      calc (m * 2 ^ e : ℚ) ≤ 2 ^ 53 * 2 ^ (g - 1) := by
            gcongr
            · exact one_le_two
            · omega
        _ = 2 ^ (g + 52) := by
            rw [← zpow_natCast, ← zpow_add₀ two_ne_zero]
            congr 1
            omega

/-- What a quotient is rounded to is half a step away from it, on the grid. -/
theorem exists_ofRatio_point (s : Bool) (hnum : 0 < num) (hden : 0 < den)
    (hrange : (num / den : ℚ) < ceiling) : ∃ k : ℕ,
      (ofRatio s num den).magnitude = k * 2 ^ gridExponent num den ∧
      |(k * 2 ^ gridExponent num den : ℚ) - num / den| ≤ 2 ^ gridExponent num den / 2 := by
  obtain ⟨m, e, h, hround, hgrid, herror⟩ := exists_ofRatio s hnum hden hrange
  obtain ⟨k, hk⟩ := exists_point (m := m) hgrid
  rw [hk] at herror
  exact ⟨k, by rw [hround, ← hk, magnitude], herror⟩

/-- No double is nearer to a quotient than the one that it is rounded to. -/
theorem abs_magnitude_ofRatio_sub_le (s : Bool) (hnum : 0 < num) (hden : 0 < den)
    (hrange : (num / den : ℚ) < ceiling) (y : Double) :
    |(ofRatio s num den).magnitude - num / den| ≤ |y.magnitude - num / den| := by
  obtain ⟨k, hround, herror⟩ := exists_ofRatio_point s hnum hden hrange
  rw [hround]
  rcases exists_point_or_le hnum hden y with ⟨j, hj⟩ | ⟨hbelow, habove⟩
  · rw [hj]
    exact abs_sub_le_of_grid herror
  · -- the least number with this grid is on it, and between the double and the quotient
    have hleast := abs_sub_le_of_grid (b := 2 ^ 52) herror
    have hpoint : ((2 ^ 52 : ℕ) : ℚ) * 2 ^ gridExponent num den =
        2 ^ (gridExponent num den + 52) := by
      rw [Nat.cast_pow, Nat.cast_ofNat, ← zpow_natCast, ← zpow_add₀ two_ne_zero, add_comm]
      rfl
    rw [hpoint, abs_of_nonpos (by linarith : (2 : ℚ) ^ (gridExponent num den + 52) - num / den ≤ 0)]
      at hleast
    rw [abs_of_nonpos (by linarith : y.magnitude - num / den ≤ 0)]
    linarith

end Grid

/-! ## Integers as doubles -/

section Integers

variable {r : ℚ}

/-- Integers of 64 bits are in the range of doubles. -/
theorem natAbs_lt_ceiling (hn : n.natAbs ≤ 2 ^ 63) : (n.natAbs : ℚ) < ceiling := by
  have hcast : (n.natAbs : ℚ) ≤ 2 ^ 63 := by exact_mod_cast hn
  have hpow : (2 : ℚ) ^ 63 ≤ 2 ^ 971 := pow_le_pow_right₀ one_le_two (by decide)
  calc (n.natAbs : ℚ) ≤ 2 ^ 63 := hcast
    _ < (2 ^ 53 - 1 / 2) * 2 ^ 63 := by norm_num
    _ ≤ ceiling := mul_le_mul_of_nonneg_left hpow (by norm_num)

theorem natAbs_toInt_lt_ceiling (i : Int64) : (i.toInt.natAbs : ℚ) < ceiling := by
  have hlow := i.le_toInt
  have hhigh := i.toInt_lt
  exact natAbs_lt_ceiling (by omega)

theorem ofInt_zero : ofInt 0 = zero false :=
  ofRatio_zero _ 1

@[simp] theorem toRat?_zero (s : Bool) : (zero s).toRat? = some 0 := by
  simp [zero, toRat?]

@[simp] theorem magnitude_zero (s : Bool) : (zero s).magnitude = 0 := by
  simp [zero, magnitude]

/-- An integer is rounded to a number of its sign. -/
theorem exists_toRat?_ofInt (hrange : (n.natAbs : ℚ) < ceiling) :
    ∃ r, (ofInt n).toRat? = some r ∧ |r - n| = |(ofInt n).magnitude - n.natAbs| := by
  rcases n.natAbs.eq_zero_or_pos with hzero | hpos
  · obtain rfl := Int.natAbs_eq_zero.1 hzero
    exact ⟨0, by simp [ofInt_zero], by simp [ofInt_zero]⟩
  · have hone : (n.natAbs / (1 : ℕ) : ℚ) < ceiling := by rwa [Nat.cast_one, div_one]
    obtain ⟨m, e, h, hround, -, -⟩ := exists_ofRatio (decide (n < 0)) hpos Nat.one_pos hone
    rw [ofInt, hround]
    refine ⟨_, rfl, ?_⟩
    rcases lt_or_ge n 0 with hneg | hnonneg
    · have habs : (n : ℚ) = -(n.natAbs : ℚ) := by
        rw [Nat.cast_natAbs, abs_of_neg hneg, Int.cast_neg, neg_neg]
      rw [decide_eq_true hneg, if_pos rfl, habs, magnitude, neg_sub_neg, abs_sub_comm]
    · have habs : (n : ℚ) = (n.natAbs : ℚ) := by rw [Nat.cast_natAbs, abs_of_nonneg hnonneg]
      rw [decide_eq_false (not_lt.2 hnonneg), if_neg Bool.false_ne_true, habs, magnitude]

/-- No double is nearer to an integer than the one that it is rounded to. -/
theorem abs_ofInt_sub_le (hrange : (n.natAbs : ℚ) < ceiling) (hr : (ofInt n).toRat? = some r)
    (hy : y.toRat? = some q) : |r - n| ≤ |q - n| := by
  obtain ⟨r', hr', herror⟩ := exists_toRat?_ofInt hrange
  obtain rfl := Option.some.inj (hr.symm.trans hr')
  rw [herror]
  rcases n.natAbs.eq_zero_or_pos with hzero | hpos
  · obtain rfl := Int.natAbs_eq_zero.1 hzero
    simp [ofInt_zero]
  · have hnearest := abs_magnitude_ofRatio_sub_le (decide (n < 0)) hpos Nat.one_pos
      (by rwa [Nat.cast_one, div_one]) y
    rw [Nat.cast_one, div_one] at hnearest
    calc |(ofInt n).magnitude - n.natAbs| ≤ |y.magnitude - n.natAbs| := hnearest
      _ = |(|q| - |(n : ℚ)|)| := by rw [abs_of_toRat? hy, Nat.cast_natAbs, Int.cast_abs]
      _ ≤ |q - n| := abs_abs_sub_abs_le q n

/-- The points of the grid around an integer up to `2 ^ 53` are one apart at most, but for the last
one, so the integer is one of them. -/
theorem exists_point_of_natAbs_le (hpos : 0 < n.natAbs) (hn : n.natAbs ≤ 2 ^ 53) :
    ∃ j : ℕ, (n.natAbs : ℚ) = j * 2 ^ gridExponent n.natAbs 1 := by
  obtain ⟨-, -, habove⟩ := gridExponent_spec hpos Nat.one_pos
  obtain ⟨g, hg⟩ : ∃ g, gridExponent n.natAbs 1 = g := ⟨_, rfl⟩
  rw [hg, Nat.cast_one, div_one] at habove
  rw [hg]
  rcases le_or_gt g 0 with hfine | hcoarse
  · obtain ⟨j, hj⟩ := exists_point (m := n.natAbs) hfine
    exact ⟨j, by rwa [zpow_zero, mul_one] at hj⟩
  · have hlast : (2 : ℚ) ^ (g + 52) ≤ n.natAbs := habove.resolve_left (by omega)
    have hmost : (n.natAbs : ℚ) ≤ 2 ^ (53 : ℤ) := by exact_mod_cast hn
    obtain rfl : g = 1 := by
      have hle := (zpow_le_zpow_iff_right₀ one_lt_two).1 (hlast.trans hmost)
      omega
    refine ⟨2 ^ 52, ?_⟩
    rw [le_antisymm hmost hlast]
    norm_num

/-- Integers up to `2 ^ 53` are doubles. -/
theorem toRat?_ofInt_of_le (hn : n.natAbs ≤ 2 ^ 53) : (ofInt n).toRat? = some (n : ℚ) := by
  have hrange := natAbs_lt_ceiling (hn.trans (by decide))
  obtain ⟨r, hr, herror⟩ := exists_toRat?_ofInt hrange
  suffices hexact : (ofInt n).magnitude = n.natAbs by
    rw [hexact, sub_self, abs_zero, abs_eq_zero, sub_eq_zero] at herror
    rw [hr, herror]
  rcases n.natAbs.eq_zero_or_pos with hzero | hpos
  · obtain rfl := Int.natAbs_eq_zero.1 hzero
    simp [ofInt_zero]
  · have hone : (n.natAbs / (1 : ℕ) : ℚ) = n.natAbs := by rw [Nat.cast_one, div_one]
    obtain ⟨k, hround, hnear⟩ := exists_ofRatio_point (decide (n < 0)) hpos Nat.one_pos
      (hone.trans_lt hrange)
    obtain ⟨j, hj⟩ := exists_point_of_natAbs_le hpos hn
    rw [hone] at hnear
    have hzero := abs_sub_le_of_grid (b := j) hnear
    rw [← hj, sub_self, abs_zero, abs_nonpos_iff, sub_eq_zero] at hzero
    rw [ofInt, hround, hzero]

/-- Nothing is on another side of a number than what it is nearest to. -/
theorem compare_eq_of_abs_sub_le {a : ℚ} (hnear : |r - a| ≤ |q - a|) (hne : r ≠ q) :
    compare r q = compare a q := by
  rcases lt_or_gt_of_ne hne with hlt | hgt
  · have ha : a < q := by
      by_contra hle
      rw [not_lt] at hle
      rw [abs_of_nonpos (by linarith), abs_of_nonpos (by linarith)] at hnear
      linarith
    rw [compare_lt_iff_lt.2 hlt, compare_lt_iff_lt.2 ha]
  · have ha : q < a := by
      by_contra hle
      rw [not_lt] at hle
      rw [abs_of_nonneg (by linarith), abs_of_nonneg (by linarith)] at hnear
      linarith
    rw [compare_gt_iff_gt.2 hgt, compare_gt_iff_gt.2 ha]

/-- The order of an integer and a number when the integer is rounded to a double first: it equals
the number that it is rounded to. -/
def roundedOrder (n : ℤ) (q : ℚ) : Ordering :=
  if (ofInt n).toRat? = some q then .eq else compare (n : ℚ) q

theorem roundedOrder_eq_compare_iff :
    roundedOrder n q = compare (n : ℚ) q ↔ ((ofInt n).toRat? = some q → (n : ℚ) = q) := by
  unfold roundedOrder
  split
  next heq => rw [eq_comm, compare_eq_iff_eq, forall_prop_of_true heq]
  next hne => exact ⟨fun _ heq => absurd heq hne, fun _ => rfl⟩

/-- Integers up to `2 ^ 53` keep their order. -/
theorem roundedOrder_of_le (hn : n.natAbs ≤ 2 ^ 53) : roundedOrder n q = compare (n : ℚ) q :=
  roundedOrder_eq_compare_iff.2 fun h => Option.some.inj ((toRat?_ofInt_of_le hn).symm.trans h)

theorem roundedOrder_ne_gt_iff :
    roundedOrder n q ≠ .gt ↔ (n : ℚ) ≤ q ∨ (ofInt n).toRat? = some q := by
  unfold roundedOrder
  split
  next heq => simp [heq]
  next hne => simp [hne, compare_gt_iff_gt]

theorem roundedOrder_ne_lt_iff :
    roundedOrder n q ≠ .lt ↔ q ≤ n ∨ (ofInt n).toRat? = some q := by
  unfold roundedOrder
  split
  next heq => simp [heq]
  next hne => simp [hne, compare_lt_iff_lt]

/-- An integer that is rounded stays on its side of every double, or comes to lie on it. -/
theorem compare?_ofInt (hrange : (n.natAbs : ℚ) < ceiling) (hy : y.toRat? = some q) :
    (ofInt n).compare? y = some (roundedOrder n q) := by
  obtain ⟨r, hr, -⟩ := exists_toRat?_ofInt hrange
  rw [compare?_of_toRat? hr hy, Option.some_inj, roundedOrder]
  split
  next heq => exact compare_eq_iff_eq.2 (Option.some.inj (hr.symm.trans heq))
  next hne =>
    exact compare_eq_of_abs_sub_le (abs_ofInt_sub_le hrange hr hy) fun h => hne (h ▸ hr)

/-- The same with the integer on the right. -/
theorem compare?_ofInt_right (hrange : (n.natAbs : ℚ) < ceiling) (hy : y.toRat? = some q) :
    y.compare? (ofInt n) = some (roundedOrder n q).swap := by
  obtain ⟨r, hr, -⟩ := exists_toRat?_ofInt hrange
  have hleft := compare?_ofInt hrange hy
  rw [compare?_of_toRat? hr hy, Option.some_inj] at hleft
  rw [compare?_of_toRat? hy hr, ← hleft, Std.OrientedOrd.eq_swap]

/-- An integer is not less than a double, unless it is less and not rounded to it. -/
theorem ofInt_lt_eq_false_iff (hrange : (n.natAbs : ℚ) < ceiling) (hy : y.toRat? = some q) :
    (ofInt n).lt y = false ↔ q ≤ n ∨ (ofInt n).toRat? = some q := by
  rw [← roundedOrder_ne_lt_iff, lt, compare?_ofInt hrange hy, beq_eq_false_iff_ne, ne_eq,
    Option.some_inj]

/-- An integer is not greater than a double, unless it is greater and not rounded to it. -/
theorem lt_ofInt_eq_false_iff (hrange : (n.natAbs : ℚ) < ceiling) (hy : y.toRat? = some q) :
    y.lt (ofInt n) = false ↔ (n : ℚ) ≤ q ∨ (ofInt n).toRat? = some q := by
  rw [← roundedOrder_ne_gt_iff, lt, compare?_ofInt_right hrange hy, beq_eq_false_iff_ne, ne_eq,
    Option.some_inj, Ordering.swap_eq_lt]

/-- Integers up to `2 ^ 53` are ordered as doubles. -/
theorem ofInt_lt_ofInt_eq_false {m : ℤ} (hm : m.natAbs ≤ 2 ^ 53) (hn : n.natAbs ≤ 2 ^ 53)
    (h : n ≤ m) : (ofInt m).lt (ofInt n) = false :=
  (ofInt_lt_eq_false_iff (natAbs_lt_ceiling (hm.trans (by decide))) (toRat?_ofInt_of_le hn)).2
    (.inl (Int.cast_le.2 h))

end Integers

end Reflex.Double
