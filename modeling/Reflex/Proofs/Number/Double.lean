import Reflex.Duration

/-!
# The Order of Doubles

Finite doubles are ordered as their units are, so bounds on doubles are bounds on integers.

## Main statements

- `Double.compare?_swap`: the order seen from the other double.
- `Double.lt_eq_decide`: the order of finite doubles.
- `Duration.ofSeconds?_of_lt`: which numbers of seconds are durations.
-/

namespace Reflex

theorem powerOfTwo_pos (exponent : Nat) : 0 < powerOfTwo exponent :=
  Nat.pow_pos Nat.two_pos

namespace Double

theorem unitsPerOne_pos : 0 < unitsPerOne := powerOfTwo_pos 1074

/-- A finite double has units. -/
theorem exists_units_of_isFinite {x : Double} (h : x.isFinite = true) : ∃ u, x.units? = some u := by
  cases x with
  | finite => exact ⟨_, rfl⟩
  | nan | infinite => cases h

/-- The units place a finite double on the extended line. -/
theorem position?_of_units {x : Double} {u : Int} (h : x.units? = some u) :
    x.position? = some (0, u) := by
  cases x with
  | finite =>
    obtain rfl := Option.some.inj h
    rfl
  | nan | infinite => cases h

/-- Finite doubles are comparable. -/
theorem exists_compare?_of_isFinite {x y : Double} (hx : x.isFinite = true)
    (hy : y.isFinite = true) : ∃ order, x.compare? y = some order := by
  obtain ⟨u, hu⟩ := exists_units_of_isFinite hx
  obtain ⟨v, hv⟩ := exists_units_of_isFinite hy
  rw [compare?, position?_of_units hu, position?_of_units hv]
  exact ⟨_, rfl⟩

/-- The order of two doubles is reversed when it is seen from the other one. -/
theorem compare?_swap (x y : Double) : y.compare? x = (x.compare? y).map Ordering.swap := by
  rw [compare?, compare?]
  cases x.position? with
  | none => cases y.position? <;> rfl
  | some p =>
    cases y.position? with
    | none => rfl
    | some q => simp only [Option.map_some, Ordering.swap_then, ← Std.OrientedOrd.eq_swap]

/-- A finite double is less than another one when its units are. -/
theorem lt_eq_decide {x y : Double} {u v : Int} (hx : x.units? = some u) (hy : y.units? = some v) :
    x.lt y = decide (u < v) := by
  rw [lt, compare?, position?_of_units hx, position?_of_units hy]
  show (some (compare u v) == some Ordering.lt) = decide (u < v)
  rw [Bool.eq_iff_iff, beq_iff_eq, decide_eq_true_iff, Option.some_inj, Std.compare_eq_lt]

end Double

/-- A number of seconds that is not negative and less than `2 ^ 64` is a duration. -/
theorem Duration.ofSeconds?_of_lt {x : Double} {u : Int} (hx : x.units? = some u) (hlow : 0 ≤ u)
    (hhigh : u < (Word.size * Double.unitsPerOne : Nat)) :
    ofSeconds? x =
      some (Double.roundDiv (u.toNat * nanosPerSecond) Double.unitsPerOne) := by
  rw [ofSeconds?, hx]
  show (if u < 0 || (Word.size * Double.unitsPerOne : Nat) ≤ u then none else _) = _
  rw [if_neg]
  rw [Bool.or_eq_true, decide_eq_true_iff, decide_eq_true_iff]
  omega

end Reflex
