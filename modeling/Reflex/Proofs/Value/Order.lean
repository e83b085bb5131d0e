import Reflex.Proofs.Number.Double
import Reflex.Proofs.TimeOfDay
import Reflex.Value

/-!
# The Order of Values

Whether two values have an order, and which one, does not depend on the value that is asked first:
seen from the other one the order is reversed. This holds across kinds, too, where an integer
becomes a double beside a double, and a text becomes a time beside a time. Equal values have the
order of equals. The converse needs values of one kind, since a time has the order of equals with
every text that reads as this time, and an integer with the double that it is rounded to.

## Main definitions

- `Value.OfOneKind`: values of one kind.

## Main statements

- `Value.compare?_swap`: the order seen from the other value.
- `Value.same_iff`: the values of one kind that have the order of equals are equal.
-/

namespace Reflex

namespace TimeOfDay

theorem order_swap (s t : TimeOfDay) : t.order s = (s.order t).swap := by
  rw [order, order, Ordering.swap_then, ← Std.OrientedOrd.eq_swap, ← Std.OrientedOrd.eq_swap]

theorem order_eq_iff {s t : TimeOfDay} : s.order t = .eq ↔ s = t := by
  rw [order, Ordering.then_eq_eq, Std.compare_eq_iff_eq, Std.compare_eq_iff_eq]
  constructor
  · rintro ⟨hsecond, hnano⟩
    exact TimeOfDay.ext hsecond hnano
  · rintro rfl
    exact ⟨rfl, rfl⟩

end TimeOfDay

namespace Value

theorem textOrder_swap (s t : String) : textOrder t s = (textOrder s t).swap := by
  rw [textOrder, textOrder]
  by_cases hlt : s < t
  · rw [if_neg (String.lt_asymm hlt), if_pos hlt, if_pos hlt]
    rfl
  · rw [if_neg hlt, if_neg hlt]
    split <;> rfl

theorem textOrder_eq_iff {s t : String} : textOrder s t = .eq ↔ s = t := by
  rw [textOrder]
  constructor
  · intro h
    split at h
    next => cases h
    next hlt =>
      split at h
      next => cases h
      next hgt => exact String.le_antisymm (String.not_lt.1 hgt) (String.not_lt.1 hlt)
  · rintro rfl
    rw [if_neg (String.lt_irrefl s), if_neg (String.lt_irrefl s)]

/-- The order seen from a time: the other value is taken as a time in both directions. -/
theorem compare?_time_swap (t : TimeOfDay) (v : Value) :
    v.compare? (.time t) = ((time t).compare? v).map Ordering.swap := by
  cases v with
  | time s => exact congrArg some (TimeOfDay.order_swap t s)
  | string text =>
    simp only [compare?, isTime, asTime?, Bool.or_true, Bool.true_or, if_true]
    cases TimeOfDay.read? text with
    | none => rfl
    | some s => exact congrArg some (TimeOfDay.order_swap t s)
  | bool | int | double => rfl

/-- The order of two values is reversed when it is seen from the other one, and there is none in
either direction or in both. -/
theorem compare?_swap (v w : Value) : w.compare? v = (v.compare? w).map Ordering.swap := by
  cases v with
  | time t => exact compare?_time_swap t w
  | bool b =>
    cases w with
    | bool c => exact congrArg some Std.OrientedOrd.eq_swap
    | int | double | time | string => rfl
  | int n =>
    cases w with
    | int m => exact congrArg some Std.OrientedOrd.eq_swap
    | double x => exact Double.compare?_swap _ x
    | bool | time | string => rfl
  | double x =>
    cases w with
    | int m => exact Double.compare?_swap x _
    | double y => exact Double.compare?_swap x y
    | bool | time | string => rfl
  | string s =>
    cases w with
    | string t => exact congrArg some (textOrder_swap s t)
    | time t =>
      rw [compare?_time_swap t, Option.map_map]
      simp [Function.comp_def]
    | bool | int | double => rfl

/-- Values of one kind. -/
inductive OfOneKind : Value → Value → Prop where
  -- Two truth values.
  | bool (b c : Bool) : OfOneKind (.bool b) (.bool c)
  -- Two integers.
  | int (n m : Int64) : OfOneKind (.int n) (.int m)
  -- Two doubles.
  | double (x y : Double) : OfOneKind (.double x) (.double y)
  -- Two times.
  | time (s t : TimeOfDay) : OfOneKind (.time s) (.time t)
  -- Two texts.
  | string (s t : String) : OfOneKind (.string s) (.string t)

/-- Values are equal exactly if they are of one kind and have the order of equals. So a double that
is not a number does not equal itself. -/
theorem same_iff {v w : Value} : v.same w = true ↔ v.OfOneKind w ∧ v.compare? w = some .eq := by
  constructor
  · intro h
    unfold same at h
    split at h
    next x y => exact ⟨.double x y, beq_iff_eq.1 h⟩
    next hdouble =>
      obtain rfl := beq_iff_eq.1 h
      cases v with
      | bool b => exact ⟨.bool b b, congrArg some (Std.compare_eq_iff_eq.2 rfl)⟩
      | int n => exact ⟨.int n n, congrArg some (Std.compare_eq_iff_eq.2 rfl)⟩
      | double x => exact (hdouble x x rfl rfl).elim
      | time t => exact ⟨.time t t, congrArg some (TimeOfDay.order_eq_iff.2 rfl)⟩
      | string s => exact ⟨.string s s, congrArg some (textOrder_eq_iff.2 rfl)⟩
  · rintro ⟨hkind, hequal⟩
    cases hkind with
    | double x y => exact beq_iff_eq.2 hequal
    | bool b c =>
      obtain rfl := Std.compare_eq_iff_eq.1 (Option.some.inj hequal)
      exact beq_self_eq_true _
    | int n m =>
      obtain rfl := Int64.toInt_inj.1 (Std.compare_eq_iff_eq.1 (Option.some.inj hequal))
      exact beq_self_eq_true _
    | time s t =>
      obtain rfl := TimeOfDay.order_eq_iff.1 (Option.some.inj hequal)
      exact beq_self_eq_true _
    | string s t =>
      obtain rfl := textOrder_eq_iff.1 (Option.some.inj hequal)
      exact beq_self_eq_true _

end Value

end Reflex
