import Reflex.Trigger.Evaluation
import Mathlib.Data.Multiset.Lattice

/-!
# Three-valued Logic

Evaluation stops as soon as a list of conditions is decided, and until then remembers in one
running value what it has seen. Its result is that of the strong Kleene logic, which looks at
every part: under the order from false over unknown to true an `all` is the least of its parts, an
`any` the greatest, and a negation turns the order around. The laws of that logic hold at every
place of a condition.

## Main definitions

- `Reflex.Condition.value`: the truth of a condition from that of all its parts.
- `Reflex.Condition.Surroundings`: a condition in which the place of one part is open.
- `Reflex.Condition.Laws`: the laws of the logic at such a place.

## Main statements

- `Reflex.Condition.evaluateAll_eq_min`, `Reflex.Condition.evaluateAny_eq_max`: what the running
  value stands for.
- `Reflex.Condition.kleene_of_evaluate`: evaluation is that of the logic.
-/

namespace Reflex

/-! ## Truth values in order -/

namespace Truth

/-- The place of a truth value in the order. -/
def rank : Truth → Nat
  | .false => 0
  | .unknown => 1
  | .true => 2

theorem rank_injective : Function.Injective rank := by
  intro a b h
  cases a <;> cases b <;> first | rfl | cases h

/-- What does not hold comes first, and what is unknown before what holds. -/
instance : LinearOrder Truth :=
  LinearOrder.lift' rank rank_injective

theorem le_true (t : Truth) : t ≤ .true := by
  cases t <;> decide

theorem false_le (t : Truth) : .false ≤ t := by
  cases t <;> decide

instance : BoundedOrder Truth where
  top := .true
  le_top := le_true
  bot := .false
  bot_le := false_le

theorem unknown_le_of_ne {t : Truth} (h : t ≠ .false) : .unknown ≤ t := by
  cases t <;> first | decide | exact absurd rfl h

theorem le_unknown_of_ne {t : Truth} (h : t ≠ .true) : t ≤ .unknown := by
  cases t <;> first | decide | exact absurd rfl h

@[simp] theorem negate_negate (t : Truth) : t.negate.negate = t := by
  cases t <;> rfl

/-- The least of several truth values; of none it is true. -/
def least (ts : List Truth) : Truth :=
  ts.foldr min .true

/-- The greatest of several truth values; of none it is false. -/
def greatest (ts : List Truth) : Truth :=
  ts.foldr max .false

/-- A value is below the least one exactly if it is below each. -/
theorem le_least {t : Truth} {ts : List Truth} : t ≤ least ts ↔ ∀ x ∈ ts, t ≤ x :=
  Multiset.le_inf (s := (ts : Multiset Truth))

theorem greatest_le {t : Truth} {ts : List Truth} : greatest ts ≤ t ↔ ∀ x ∈ ts, x ≤ t :=
  Multiset.sup_le (s := (ts : Multiset Truth))

/-- Negation turns the order around, so it makes the least value the greatest. -/
theorem negate_least (ts : List Truth) : (least ts).negate = greatest (ts.map negate) := by
  have hmin (a b : Truth) : (min a b).negate = max a.negate b.negate := by
    cases a <;> cases b <;> rfl
  induction ts with
  | nil => rfl
  | cons t ts ih =>
    rw [List.map_cons, greatest, List.foldr_cons, ← greatest, ← ih]
    exact hmin t (least ts)

theorem negate_greatest (ts : List Truth) : (greatest ts).negate = least (ts.map negate) := by
  have hback : (ts.map negate).map negate = ts := by simp [Function.comp_def]
  rw [← negate_negate (least _), negate_least, hback]

end Truth

namespace Condition

/-! ## The logic -/

mutual

/-- The truth of a condition on an event, from the truth of all its parts. -/
def value (e : Event) : Condition → Truth
  | .always => .true
  | .eventKind kind => Truth.ofBool (e.kind == kind)
  | .exists field => Truth.ofBool (e.field? field).isSome
  | .compare field op operand =>
    match e.field? field with
    | some actual => operand.compareWith actual op
    | none => .unknown
  | .all conditions => Truth.least (values e conditions)
  | .any conditions => Truth.greatest (values e conditions)
  | .not condition =>
    match condition.value e with
    | .true => .false
    | .unknown => .unknown
    | .false => .true

/-- The truths of several conditions. -/
def values (e : Event) : List Condition → List Truth
  | [] => []
  | c :: cs => c.value e :: values e cs

end

variable {e : Event}

@[simp] theorem values_eq_map (conditions : List Condition) :
    values e conditions = conditions.map (value e) := by
  induction conditions with
  | nil => rfl
  | cons c cs ih => rw [values, ih, List.map_cons]

theorem value_not (c : Condition) : (Condition.not c).value e = (c.value e).negate := by
  rw [value]
  cases c.value e <;> rfl

/-! ## Evaluation computes it -/

mutual

/-- The truth that is found from the left is that of all parts. -/
theorem evaluate_eq_value : ∀ c : Condition, c.evaluate e = c.value e
  | .always | .eventKind _ | .exists _ => by rw [evaluate, value]
  | .compare field op operand => by
    unfold evaluate value
    cases e.field? field <;> rfl
  | .all conditions => by
    rw [evaluate, evaluateAll_eq_min conditions (by decide), value,
      min_eq_right (Truth.le_true _)]
  | .any conditions => by
    rw [evaluate, evaluateAny_eq_max conditions (by decide), value,
      max_eq_right (Truth.false_le _)]
  | .not condition => by rw [evaluate, evaluate_eq_value condition, value_not]

/-- The running value of an `all` is the least truth so far. It is never false, since a condition
that does not hold ends the evaluation. -/
theorem evaluateAll_eq_min : ∀ (conditions : List Condition) {sofar : Truth}, sofar ≠ .false →
    evaluateAll e sofar conditions = min sofar (Truth.least (values e conditions))
  | [], sofar, _ => (min_eq_left (Truth.le_true sofar)).symm
  | c :: cs, sofar, hsofar => by
    have hleast : Truth.least (values e (c :: cs)) =
        min (c.value e) (Truth.least (values e cs)) := by rw [values]; rfl
    rw [evaluateAll, evaluate_eq_value c, hleast]
    cases c.value e with
    | false => rw [min_eq_left (Truth.false_le _), min_eq_right (Truth.false_le _)]
    | unknown =>
      rw [evaluateAll_eq_min cs (by decide), ← min_assoc,
        min_eq_right (Truth.unknown_le_of_ne hsofar)]
    | true => rw [evaluateAll_eq_min cs hsofar, min_eq_right (Truth.le_true _)]

/-- The running value of an `any` is the greatest truth so far, and never true. -/
theorem evaluateAny_eq_max : ∀ (conditions : List Condition) {sofar : Truth}, sofar ≠ .true →
    evaluateAny e sofar conditions = max sofar (Truth.greatest (values e conditions))
  | [], sofar, _ => (max_eq_left (Truth.false_le sofar)).symm
  | c :: cs, sofar, hsofar => by
    have hgreatest : Truth.greatest (values e (c :: cs)) =
        max (c.value e) (Truth.greatest (values e cs)) := by rw [values]; rfl
    rw [evaluateAny, evaluate_eq_value c, hgreatest]
    cases c.value e with
    | true => rw [max_eq_left (Truth.le_true _), max_eq_right (Truth.le_true _)]
    | unknown =>
      rw [evaluateAny_eq_max cs (by decide), ← max_assoc,
        max_eq_right (Truth.le_unknown_of_ne hsofar)]
    | false => rw [evaluateAny_eq_max cs hsofar, max_eq_right (Truth.false_le _)]

end

/-! ## Laws -/

/-- A condition in which the place of one part is open. -/
inductive Surroundings where
  -- The part is the condition.
  | whole
  -- The part stands among the parts of an `all`.
  | all (before : List Condition) (inner : Surroundings) (after : List Condition)
  -- The part stands among the parts of an `any`.
  | any (before : List Condition) (inner : Surroundings) (after : List Condition)
  -- The part stands below a negation.
  | not (inner : Surroundings)

/-- The condition with a part at the open place. -/
def Surroundings.fill (part : Condition) : Surroundings → Condition
  | .whole => part
  | .all before inner after => .all (before ++ inner.fill part :: after)
  | .any before inner after => .any (before ++ inner.fill part :: after)
  | .not inner => .not (inner.fill part)

/-- The truth of a condition depends on a part only through the truth of the part. -/
theorem value_fill_congr {c d : Condition} (h : c.value e = d.value e) (place : Surroundings) :
    (place.fill c).value e = (place.fill d).value e := by
  induction place with
  | whole => exact h
  | all before inner after ih | any before inner after ih =>
    simp only [Surroundings.fill, value, values_eq_map, List.map_append, List.map_cons, ih]
  | not inner ih => rw [Surroundings.fill, Surroundings.fill, value_not, value_not, ih]

section Parts

variable {cs ds : List Condition}

/-- Only which parts an `all` has counts, not their order or number. -/
theorem value_all_congr (h : ∀ c, c ∈ cs ↔ c ∈ ds) :
    (Condition.all cs).value e = (Condition.all ds).value e := by
  rw [value, value, values_eq_map, values_eq_map]
  refine eq_of_forall_le_iff fun t => ?_
  simp only [Truth.le_least, List.forall_mem_map, h]

theorem value_any_congr (h : ∀ c, c ∈ cs ↔ c ∈ ds) :
    (Condition.any cs).value e = (Condition.any ds).value e := by
  rw [value, value, values_eq_map, values_eq_map]
  refine eq_of_forall_ge_iff fun t => ?_
  simp only [Truth.greatest_le, List.forall_mem_map, h]

theorem map_value_not (cs : List Condition) :
    (cs.map .not).map (value e) = (cs.map (value e)).map Truth.negate := by
  rw [List.map_map, List.map_map]
  exact List.map_congr_left fun c _ => value_not c

theorem value_not_all (cs : List Condition) :
    (Condition.not (.all cs)).value e = (Condition.any (cs.map .not)).value e := by
  rw [value_not, value, value, values_eq_map, values_eq_map, map_value_not, Truth.negate_least]

theorem value_not_any (cs : List Condition) :
    (Condition.not (.any cs)).value e = (Condition.all (cs.map .not)).value e := by
  rw [value_not, value, value, values_eq_map, values_eq_map, map_value_not, Truth.negate_greatest]

theorem value_not_not (c : Condition) : (Condition.not (.not c)).value e = c.value e := by
  rw [value_not, value_not, Truth.negate_negate]

end Parts

/-- The laws of three-valued logic, for the parts at one place of a condition. -/
structure Laws (e : Event) (place : Surroundings) : Prop where
  /-- The parts of an `all` may change their order and be repeated. -/
  all_congr : ∀ cs ds : List Condition, (∀ c, c ∈ cs ↔ c ∈ ds) →
    (place.fill (.all cs)).evaluate e = (place.fill (.all ds)).evaluate e
  /-- The parts of an `any` may change their order and be repeated. -/
  any_congr : ∀ cs ds : List Condition, (∀ c, c ∈ cs ↔ c ∈ ds) →
    (place.fill (.any cs)).evaluate e = (place.fill (.any ds)).evaluate e
  /-- What does not hold of all does not hold of some. -/
  not_all : ∀ cs : List Condition,
    (place.fill (.not (.all cs))).evaluate e = (place.fill (.any (cs.map .not))).evaluate e
  /-- What does not hold of some holds of none. -/
  not_any : ∀ cs : List Condition,
    (place.fill (.not (.any cs))).evaluate e = (place.fill (.all (cs.map .not))).evaluate e
  /-- Two negations are none. -/
  not_not : ∀ c : Condition, (place.fill (.not (.not c))).evaluate e = (place.fill c).evaluate e

/-- Parts of the same truth may take each other's place. -/
theorem evaluate_fill_congr {c d : Condition} (h : c.value e = d.value e) (place : Surroundings) :
    (place.fill c).evaluate e = (place.fill d).evaluate e := by
  rw [evaluate_eq_value, evaluate_eq_value]
  exact value_fill_congr h place

/-- Take any condition and any event. The condition evaluates to its truth in the three-valued
logic, and the event matches exactly if that is true. The laws of the logic hold for evaluation at
every place of every condition. -/
theorem kleene_of_evaluate (e : Event) :
    (∀ c : Condition, c.evaluate e = c.value e ∧ (c.isMatch e = true ↔ c.value e = .true)) ∧
      ∀ place : Surroundings, Laws e place := by
  refine ⟨fun c => ⟨evaluate_eq_value c, ?_⟩, fun place => ?_⟩
  · rw [isMatch, evaluate_eq_value, beq_iff_eq]
  · exact {
      all_congr := fun _ _ h => evaluate_fill_congr (value_all_congr h) place
      any_congr := fun _ _ h => evaluate_fill_congr (value_any_congr h) place
      not_all := fun cs => evaluate_fill_congr (value_not_all cs) place
      not_any := fun cs => evaluate_fill_congr (value_not_any cs) place
      not_not := fun c => evaluate_fill_congr (value_not_not c) place }

end Condition

end Reflex
