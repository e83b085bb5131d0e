import Reflex.Proofs.Trigger.Acceptance
import Reflex.Proofs.Trigger.Kleene

/-!
# Membership and Equality

A comparison with a list asks for equality with one of its items, and so does an `any` of
comparisons with the items one by one. Both are true on the same events, but they differ in what
they leave unknown. The list is known not to hold a value that can be compared with some item,
while an `any` stays unknown when one item cannot be compared; and of no items at all an `any` is
false, while a list is unknown. Below an even number of negations only what is true counts, so the
two forms match the same events there.

## Main definitions

- `Trigger.Surroundings`: an expression in which the place of one part is open.
- `Trigger.isOneOf`, `Trigger.equalsOne`: the two forms.
- `Event.Splits`: the events on which their truths differ.

## Main statements

- `Trigger.exists_of_compileBelow_fill`: a part compiles by itself, and others can take its place.
- `Condition.value_fill_eq_ofBool_iff`: what counts of a part below a number of negations.
- `Condition.value_within_eq_iff`: where the truths of the two forms agree.
- `Trigger.isMatch_eq_of_isOneOf`: when one form can take the place of the other.
-/

namespace Reflex

/-- The list of some literals. -/
def Literal.list (items : List Literal) : Literal where
  json := .array (items.map Literal.json)
  canonical := by
    rw [Json.Canonical, Json.canonicalItems_iff, List.forall_mem_map]
    exact fun item _ => item.canonical

/-! ## Truths -/

namespace Truth

variable {x y : Truth} {b : Bool}

theorem eq_unknown_of_ne (htrue : x ≠ .true) (hfalse : x ≠ .false) : x = .unknown :=
  le_antisymm (le_unknown_of_ne htrue) (unknown_le_of_ne hfalse)

theorem eq_false_of_ne (htrue : x ≠ .true) (hunknown : x ≠ .unknown) : x = .false := by
  cases x <;> first | rfl | contradiction

theorem negate_eq_ofBool_iff : x.negate = ofBool b ↔ x = ofBool !b := by
  cases x <;> cases b <;> decide

theorem min_eq_ofBool_congr (h : x = ofBool b ↔ y = ofBool b) (rest : Truth) :
    min x rest = ofBool b ↔ min y rest = ofBool b := by
  cases b with
  | false =>
    change min x rest = ⊥ ↔ min y rest = ⊥
    rw [min_eq_bot, min_eq_bot]
    exact or_congr_left h
  | true =>
    change min x rest = ⊤ ↔ min y rest = ⊤
    rw [min_eq_top, min_eq_top]
    exact and_congr_left' h

theorem max_eq_ofBool_congr (h : x = ofBool b ↔ y = ofBool b) (rest : Truth) :
    max x rest = ofBool b ↔ max y rest = ofBool b := by
  cases b with
  | false =>
    change max x rest = ⊥ ↔ max y rest = ⊥
    rw [max_eq_bot, max_eq_bot]
    exact and_congr_left' h
  | true =>
    change max x rest = ⊤ ↔ max y rest = ⊤
    rw [max_eq_top, max_eq_top]
    exact or_congr_left h

/-- The place of a value among others does not count. -/
theorem least_append_cons (ts : List Truth) (x : Truth) (us : List Truth) :
    least (ts ++ x :: us) = min x (least (ts ++ us)) := by
  induction ts with
  | nil => rfl
  | cons t ts ih =>
    change min t (least (ts ++ x :: us)) = min x (min t (least (ts ++ us)))
    rw [ih, min_left_comm]

theorem greatest_append_cons (ts : List Truth) (x : Truth) (us : List Truth) :
    greatest (ts ++ x :: us) = max x (greatest (ts ++ us)) := by
  induction ts with
  | nil => rfl
  | cons t ts ih =>
    change max t (greatest (ts ++ x :: us)) = max x (max t (greatest (ts ++ us)))
    rw [ih, max_left_comm]

end Truth

/-! ## Places below negations -/

namespace Condition

/-- Whether a place stands below an even number of negations. -/
def Surroundings.isPositive : Surroundings → Bool
  | .whole => true
  | .all _ inner _ | .any _ inner _ => inner.isPositive
  | .not inner => !inner.isPositive

/-- Below an even number of negations a condition is true through a part that is true, and below
an odd number through one that is false: what else the part may be does not count. -/
theorem value_fill_eq_ofBool_iff {e : Event} {c d : Condition} (opening : Surroundings)
    {b : Bool} (h : c.value e = Truth.ofBool (b == opening.isPositive) ↔
      d.value e = Truth.ofBool (b == opening.isPositive)) :
    (opening.fill c).value e = Truth.ofBool b ↔ (opening.fill d).value e = Truth.ofBool b := by
  induction opening generalizing b with
  | whole => simpa [Surroundings.isPositive, Surroundings.fill] using h
  | all before inner after ih =>
    simp only [Surroundings.fill, value, values_eq_map, List.map_append, List.map_cons,
      Truth.least_append_cons]
    exact Truth.min_eq_ofBool_congr (ih h) _
  | any before inner after ih =>
    simp only [Surroundings.fill, value, values_eq_map, List.map_append, List.map_cons,
      Truth.greatest_append_cons]
    exact Truth.max_eq_ofBool_congr (ih h) _
  | not inner ih =>
    -- what counts below a negation is the opposite truth
    rw [Surroundings.fill, Surroundings.fill, value_not, value_not, Truth.negate_eq_ofBool_iff,
      Truth.negate_eq_ofBool_iff]
    refine ih ?_
    rw [Surroundings.isPositive] at h
    cases b <;> cases hinner : inner.isPositive <;> simpa [hinner] using h

end Condition

/-! ## Equality with some of the items -/

namespace Operand

variable {v : Value} {ws : List Value}

/-- Equality with a value is true if the two have the order of equals, and false if they have
another order. -/
theorem compareWith_eq_true_iff {w : Value} :
    compareWith v .eq (.single w) = .true ↔ v.compare? w = some .eq := by
  rw [compareWith_single (by decide)]
  cases v.compare? w with
  | none => simp
  | some order => cases order <;> simp [CompareOp.accepts, Truth.ofBool]

theorem compareWith_eq_false_iff {w : Value} :
    compareWith v .eq (.single w) = .false ↔ v.compare? w ≠ none ∧ v.compare? w ≠ some .eq := by
  rw [compareWith_single (by decide)]
  cases v.compare? w with
  | none => simp
  | some order => cases order <;> simp [CompareOp.accepts, Truth.ofBool]

theorem isOneOf_eq_true_iff : isOneOf v ws = .true ↔ ∃ w ∈ ws, v.compare? w = some .eq := by
  rw [← List.mem_filterMap, isOneOf, ← List.contains_iff_mem]
  split
  next h => exact iff_of_true rfl h
  next h => exact iff_of_false (by split <;> simp) h

theorem isOneOf_eq_unknown_iff : isOneOf v ws = .unknown ↔ ∀ w ∈ ws, v.compare? w = none := by
  rw [← List.filterMap_eq_nil_iff, ← List.isEmpty_iff, isOneOf]
  split
  next h =>
    have hne : ws.filterMap v.compare? ≠ [] := List.ne_nil_of_mem (by simpa using h)
    simp [hne]
  next => split <;> simp_all

end Operand

/-- An event splits a list if the list is empty, or if the event has a value in the field which
equals none of the items, and which can be compared with some of them but not with all. -/
def Event.Splits (e : Event) (field : String) (ws : List Value) : Prop :=
  ws = [] ∨ ∃ v, e.field? field = some v ∧ (∃ w ∈ ws, v.compare? w = none) ∧
    (∃ w ∈ ws, v.compare? w ≠ none) ∧ ∀ w ∈ ws, v.compare? w ≠ some .eq

theorem Event.splits_iff {e : Event} {field : String} {v : Value} {ws : List Value}
    (hnil : ws ≠ []) (h : e.field? field = some v) :
    e.Splits field ws ↔ (∃ w ∈ ws, v.compare? w = none) ∧ (∃ w ∈ ws, v.compare? w ≠ none) ∧
      ∀ w ∈ ws, v.compare? w ≠ some .eq := by
  constructor
  · rintro (hws | ⟨v', hv', hsplits⟩)
    · exact absurd hws hnil
    · obtain rfl := Option.some.inj (h.symm.trans hv')
      exact hsplits
  · exact fun hsplits => .inr ⟨v, h, hsplits⟩

namespace Condition

/-- The comparisons of a field with several values, one by one. -/
def equalities (field : String) (ws : List Value) : List Condition :=
  ws.map fun w => .compare field .eq (.single w)

section Membership

variable {e : Event} {field : String} {ws : List Value}

theorem value_within_of_none (h : e.field? field = none) :
    (Condition.compare field .within (.list ws)).value e = .unknown := by
  rw [value, h]

theorem value_within_of_some {v : Value} (h : e.field? field = some v) :
    (Condition.compare field .within (.list ws)).value e = Operand.isOneOf v ws := by
  rw [value, h]
  rfl

/-- An `any` has the greatest truth of its parts. -/
theorem value_any_eq_greatest (cs : List Condition) :
    (Condition.any cs).value e = Truth.greatest (cs.map (value e)) := by
  rw [value, values_eq_map]

theorem value_any_eq_true_iff {cs : List Condition} :
    (Condition.any cs).value e = .true ↔ ∃ c ∈ cs, c.value e = .true := by
  rw [value_any_eq_greatest]
  constructor
  · intro h
    by_contra hnone
    have hle : Truth.greatest (cs.map (value e)) ≤ .unknown := by
      rw [Truth.greatest_le, List.forall_mem_map]
      exact fun c hc => Truth.le_unknown_of_ne fun htrue => hnone ⟨c, hc, htrue⟩
    rw [h] at hle
    exact absurd hle (by decide)
  · rintro ⟨c, hc, htrue⟩
    refine le_antisymm (Truth.le_true _) ?_
    rw [← htrue]
    exact Truth.greatest_le.1 le_rfl _ (List.mem_map_of_mem hc)

theorem value_any_eq_false_iff {cs : List Condition} :
    (Condition.any cs).value e = .false ↔ ∀ c ∈ cs, c.value e = .false := by
  rw [value_any_eq_greatest, ← List.forall_mem_map (P := (· = Truth.false))]
  change Truth.greatest _ = ⊥ ↔ ∀ x ∈ cs.map (value e), x = ⊥
  simp only [← le_bot_iff, Truth.greatest_le]

/-- Of no items the one form is unknown and the other one false. -/
theorem value_within_nil : (Condition.compare field .within (.list [])).value e = .unknown := by
  rw [value]
  cases e.field? field <;> rfl

theorem value_equalities_nil : (Condition.any (equalities field [])).value e = .false :=
  value_any_eq_false_iff.2 (by simp [equalities])

theorem value_equalities_of_none (hne : ws ≠ []) (h : e.field? field = none) :
    (Condition.any (equalities field ws)).value e = .unknown := by
  have hunknown : ∀ c ∈ equalities field ws, c.value e = .unknown := by
    simp [equalities, value, h]
  obtain ⟨w, hw⟩ := List.exists_mem_of_ne_nil ws hne
  have hmem : Condition.compare field .eq (.single w) ∈ equalities field ws :=
    List.mem_map_of_mem hw
  have hfalse : (Condition.any (equalities field ws)).value e ≠ .false := fun hall => by
    have := value_any_eq_false_iff.1 hall _ hmem
    rw [hunknown _ hmem] at this
    cases this
  have htrue : (Condition.any (equalities field ws)).value e ≠ .true := fun hsome => by
    obtain ⟨c, hc, h⟩ := value_any_eq_true_iff.1 hsome
    rw [hunknown c hc] at h
    cases h
  exact Truth.eq_unknown_of_ne htrue hfalse

section Present

variable {v : Value} (h : e.field? field = some v)

include h

theorem value_equalities_eq_true_iff :
    (Condition.any (equalities field ws)).value e = .true ↔
      ∃ w ∈ ws, v.compare? w = some .eq := by
  rw [value_any_eq_true_iff]
  simp [equalities, value, h, Operand.compareWith_eq_true_iff]

theorem value_equalities_eq_false_iff :
    (Condition.any (equalities field ws)).value e = .false ↔
      ∀ w ∈ ws, v.compare? w ≠ none ∧ v.compare? w ≠ some .eq := by
  rw [value_any_eq_false_iff]
  simp [equalities, value, h, Operand.compareWith_eq_false_iff]

end Present

/-- A list and the comparisons one by one are true on the same events. -/
theorem value_within_eq_true_iff :
    (Condition.compare field .within (.list ws)).value e = .true ↔
      (Condition.any (equalities field ws)).value e = .true := by
  by_cases hnil : ws = []
  · rw [hnil, value_within_nil, value_equalities_nil]
    decide
  cases h : e.field? field with
  | none => rw [value_within_of_none h, value_equalities_of_none hnil h]
  | some v =>
    rw [value_within_of_some h, Operand.isOneOf_eq_true_iff, value_equalities_eq_true_iff h]

/-- Where neither form is true, one of them is unknown and the other one false exactly on the events
that split the list. -/
theorem value_within_eq_iff_of_some {v : Value} (hnil : ws ≠ []) (h : e.field? field = some v)
    (hne : ∀ w ∈ ws, v.compare? w ≠ some .eq) :
    Operand.isOneOf v ws = (Condition.any (equalities field ws)).value e ↔
      ¬e.Splits field ws := by
  have hwithin : Operand.isOneOf v ws ≠ .true := fun htrue => by
    obtain ⟨w, hw, heq⟩ := Operand.isOneOf_eq_true_iff.1 htrue
    exact hne w hw heq
  have hany : (Condition.any (equalities field ws)).value e ≠ .true := fun htrue => by
    obtain ⟨w, hw, heq⟩ := (value_equalities_eq_true_iff h).1 htrue
    exact hne w hw heq
  by_cases hnone : ∃ w ∈ ws, v.compare? w = none
  · have hunknown : (Condition.any (equalities field ws)).value e = .unknown := by
      refine Truth.eq_unknown_of_ne hany fun hfalse => ?_
      obtain ⟨w, hw, hw'⟩ := hnone
      exact ((value_equalities_eq_false_iff h).1 hfalse w hw).1 hw'
    rw [hunknown, Operand.isOneOf_eq_unknown_iff, Event.splits_iff hnil h, and_iff_right hnone,
      and_iff_left hne]
    simp
  · have hsome : ∀ w ∈ ws, v.compare? w ≠ none := fun w hw hw' => hnone ⟨w, hw, hw'⟩
    have hknown : Operand.isOneOf v ws ≠ .unknown := fun hunknown => by
      obtain ⟨w, hw⟩ := List.exists_mem_of_ne_nil ws hnil
      exact hsome w hw (Operand.isOneOf_eq_unknown_iff.1 hunknown w hw)
    rw [Truth.eq_false_of_ne hwithin hknown,
      (value_equalities_eq_false_iff h).2 fun w hw => ⟨hsome w hw, hne w hw⟩,
      Event.splits_iff hnil h]
    exact iff_of_true rfl fun hboth => hnone hboth.1

/-- The truths of the two forms agree on the events that do not split the list. -/
theorem value_within_eq_iff :
    (Condition.compare field .within (.list ws)).value e =
      (Condition.any (equalities field ws)).value e ↔ ¬e.Splits field ws := by
  by_cases hnil : ws = []
  · rw [hnil, value_within_nil, value_equalities_nil]
    exact iff_of_false (by decide) (not_not_intro (.inl rfl))
  cases h : e.field? field with
  | none =>
    rw [value_within_of_none h, value_equalities_of_none hnil h]
    refine iff_of_true rfl ?_
    rintro (hws | ⟨v, hv, -⟩)
    · exact hnil hws
    · cases h.symm.trans hv
  | some v =>
    rw [value_within_of_some h]
    by_cases hequal : ∃ w ∈ ws, v.compare? w = some .eq
    · rw [Operand.isOneOf_eq_true_iff.2 hequal, (value_equalities_eq_true_iff h).2 hequal]
      obtain ⟨w, hw, heq⟩ := hequal
      rw [Event.splits_iff hnil h]
      exact iff_of_true rfl fun hsplits => hsplits.2.2 w hw heq
    · exact value_within_eq_iff_of_some hnil h fun w hw heq => hequal ⟨w, hw, heq⟩

end Membership

end Condition

namespace Trigger

/-! ## Parts of an expression -/

/-- An expression in which the place of one part is open. -/
inductive Surroundings where
  -- The part is the expression.
  | whole
  -- The part stands among the parts of an `all`.
  | all (before : List Trigger) (inner : Surroundings) (after : List Trigger)
  -- The part stands among the parts of an `any`.
  | any (before : List Trigger) (inner : Surroundings) (after : List Trigger)
  -- The part stands below a negation.
  | not (inner : Surroundings)

namespace Surroundings

/-- The expression with a part at the open place. -/
def fill (part : Trigger) : Surroundings → Trigger
  | .whole => part
  | .all before inner after => .all (before ++ inner.fill part :: after)
  | .any before inner after => .any (before ++ inner.fill part :: after)
  | .not inner => .not (inner.fill part)

/-- Whether the place stands below an even number of negations. -/
def isPositive : Surroundings → Bool
  | .whole => true
  | .all _ inner _ | .any _ inner _ => inner.isPositive
  | .not inner => !inner.isPositive

/-- The event kind that is fixed at the place for a part that names none itself. -/
def kind? (fixed : Option String) : Surroundings → Option String
  | .whole => fixed
  | .all before inner after => inner.kind? ((fixedKind? (before ++ after)).or fixed)
  | .any _ inner _ => inner.kind? fixed
  | .not inner => inner.kind? fixed

end Surroundings

section Fill

variable {catalog : Catalog} {fixed : Option String} {part : Trigger}

theorem namedKind?_fill (hpart : part.namedKind? = none) (place : Surroundings) :
    (place.fill part).namedKind? = none := by
  cases place with
  | whole => exact hpart
  | _ => rfl

/-- An expression that names no kind does not change which kind a list fixes. -/
theorem fixedKind?_append_cons {t : Trigger} (ht : t.namedKind? = none)
    (before after : List Trigger) :
    fixedKind? (before ++ t :: after) = fixedKind? (before ++ after) := by
  rw [← kindFixed?_all, ← kindFixed?_all, kindFixed?, kindFixed?, List.findSome?_append,
    List.findSome?_append, List.findSome?_cons, ht]

/-- One of several expressions compiles by itself, and whatever compiles there can take its
place. -/
theorem exists_of_compileList_append_cons (before : List Trigger) {t : Trigger}
    {after : List Trigger} {cs : List Condition}
    (h : compileList catalog fixed (before ++ t :: after) = .ok cs) :
    ∃ bs c as, cs = bs ++ c :: as ∧ compileBelow catalog fixed t = .ok c ∧
      ∀ u d, compileBelow catalog fixed u = .ok d →
        compileList catalog fixed (before ++ u :: after) = .ok (bs ++ d :: as) := by
  induction before generalizing cs with
  | nil =>
    obtain ⟨c, as, hc, has, rfl⟩ := compileList_cons_eq_ok h
    refine ⟨[], c, as, rfl, hc, fun u d hd => ?_⟩
    rw [List.nil_append, compileList, hd, has]
    rfl
  | cons b before ih =>
    obtain ⟨b', rest, hb, hrest, rfl⟩ := compileList_cons_eq_ok h
    obtain ⟨bs, c, as, rfl, hc, hother⟩ := ih hrest
    refine ⟨b' :: bs, c, as, rfl, hc, fun u d hd => ?_⟩
    rw [List.cons_append, compileList, hb, hother u d hd]
    rfl

/-- A part that names no kind compiles by itself at its place, and every other such part that
compiles there can take its place. -/
theorem exists_of_compileBelow_fill (hpart : part.namedKind? = none) (place : Surroundings)
    {k : Condition} (h : compileBelow catalog fixed (place.fill part) = .ok k) :
    ∃ (opening : Condition.Surroundings) (c : Condition),
      compileBelow catalog (place.kind? fixed) part = .ok c ∧ k = opening.fill c ∧
      opening.isPositive = place.isPositive ∧
      ∀ (other : Trigger) (d : Condition), other.namedKind? = none →
        compileBelow catalog (place.kind? fixed) other = .ok d →
        compileBelow catalog fixed (place.fill other) = .ok (opening.fill d) := by
  induction place generalizing fixed k with
  | whole => exact ⟨.whole, k, h, rfl, rfl, fun _ _ _ hd => hd⟩
  | all before inner after ih =>
    obtain ⟨cs, hcs, rfl⟩ := compileBelow_all_eq_ok h
    -- the part names no kind, so which kind the list fixes does not depend on it
    rw [fixedKind?_append_cons (namedKind?_fill hpart inner)] at hcs
    obtain ⟨bs, i, as, rfl, hi, hlist⟩ := exists_of_compileList_append_cons before hcs
    obtain ⟨opening, c, hc, rfl, hpositive, hother⟩ := ih hi
    refine ⟨.all bs opening as, c, hc, rfl, hpositive, fun other d hnone hd => ?_⟩
    rw [Surroundings.fill, compileBelow,
      fixedKind?_append_cons (namedKind?_fill hnone inner), hlist _ _ (hother other d hnone hd)]
    rfl
  | any before inner after ih =>
    obtain ⟨cs, hcs, rfl⟩ := compileBelow_any_eq_ok h
    obtain ⟨bs, i, as, rfl, hi, hlist⟩ := exists_of_compileList_append_cons before hcs
    obtain ⟨opening, c, hc, rfl, hpositive, hother⟩ := ih hi
    refine ⟨.any bs opening as, c, hc, rfl, hpositive, fun other d hnone hd => ?_⟩
    rw [Surroundings.fill, compileBelow, hlist _ _ (hother other d hnone hd)]
    rfl
  | not inner ih =>
    obtain ⟨i, hi, rfl⟩ := compileBelow_not_eq_ok h
    obtain ⟨opening, c, hc, rfl, hpositive, hother⟩ := ih hi
    refine ⟨.not opening, c, hc, rfl, congrArg _ hpositive, fun other d hnone hd => ?_⟩
    rw [Surroundings.fill, compileBelow, hother other d hnone hd]
    rfl

end Fill

/-! ## The two forms -/

/-- The comparison of a field with a list. -/
def isOneOf (field : String) (items : List Literal) : Trigger :=
  .compare field .within (.list items)

/-- The comparisons of a field with several literals, one of which has to hold. -/
def equalsOne (field : String) (items : List Literal) : Trigger :=
  .any (items.map (.compare field .eq))

section Forms

variable {catalog : Catalog} {fixed : Option String} {field : String} {items : List Literal}
  {c k : Condition}

/-- Any value may be asked for. -/
theorem compileOperand_eq_of_scalar {declared : Option Descriptor} {raw : Json} {w : Value}
    (h : scalar field declared raw = .ok w) :
    compileOperand field .eq declared raw = .ok (.single w) := by
  rw [compileOperand_eq_bind (by decide) (by decide), h]
  cases w <;> rfl

theorem compileList_equalities {ws : List Value} (hfield : field ≠ "")
    (h : List.Forall₂ (fun item w => LiteralValue (catalog.declared? fixed field) item.json w)
      items ws) :
    compileList catalog fixed (items.map (.compare field .eq)) =
      .ok (Condition.equalities field ws) := by
  induction h with
  | nil => rfl
  | cons hw _ ih =>
    rw [List.map_cons, compileList, ih, compileBelow, if_neg hfield,
      compileOperand_eq_of_scalar (scalar_eq_ok_iff.2 hw)]
    rfl

/-- A list compiles to the values of its items, and then so do the comparisons one by one. -/
theorem exists_of_compileBelow_isOneOf
    (h : compileBelow catalog fixed (isOneOf field items) = .ok c) :
    ∃ ws, List.Forall₂ (fun item w => LiteralValue (catalog.declared? fixed field) item.json w)
        items ws ∧ c = .compare field .within (.list ws) ∧
      compileBelow catalog fixed (equalsOne field items) =
        .ok (.any (Condition.equalities field ws)) := by
  have hfield : field ≠ "" := by
    rintro rfl
    cases h
  obtain ⟨operand, hoperand, rfl⟩ := compileBelow_compare_eq_ok h
  cases operandValue_of_compileOperand hoperand with
  | list hws =>
    have hitems := List.forall₂_map_left_iff.1 hws
    refine ⟨_, hitems, rfl, ?_⟩
    rw [equalsOne, compileBelow, compileList_equalities hfield hitems]
    rfl
  | single hlist => exact absurd rfl hlist

/-- Take any catalog, any expression with a comparison of a field with a list at some place, and
suppose that the expression compiles. Then it also compiles with the comparisons one by one at this
place. Below an even number of negations the two expressions match the same events. At any place
they have the same truth on every event that does not split the values of the list. -/
theorem isMatch_eq_of_isOneOf {place : Surroundings}
    (h : (place.fill (isOneOf field items)).compile catalog = .ok k) :
    ∃ k' ws, (place.fill (equalsOne field items)).compile catalog = .ok k' ∧
      List.Forall₂ (fun item w =>
        LiteralValue (catalog.declared? (place.kind? none) field) item.json w) items ws ∧
      (place.isPositive = true → ∀ e, k.isMatch e = k'.isMatch e) ∧
      ∀ e : Event, ¬e.Splits field ws → k.evaluate e = k'.evaluate e := by
  obtain ⟨opening, c, hc, rfl, hpositive, hother⟩ := exists_of_compileBelow_fill rfl place h
  obtain ⟨ws, hws, rfl, hany⟩ := exists_of_compileBelow_isOneOf hc
  refine ⟨opening.fill (.any (Condition.equalities field ws)), ws, hother _ _ rfl hany, hws,
    fun hplace e => ?_, fun e hsplits => ?_⟩
  · rw [Bool.eq_iff_iff]
    simp only [Condition.isMatch, Condition.evaluate_eq_value, beq_iff_eq]
    refine Condition.value_fill_eq_ofBool_iff opening (b := true) ?_
    rw [hpositive, hplace]
    exact Condition.value_within_eq_true_iff
  · exact Condition.evaluate_fill_congr (Condition.value_within_eq_iff.2 hsplits) opening

end Forms

/-- A level and the name of a level. -/
def levels : List Literal :=
  [.ofJson (.int 1), .ofString "high"]

/-- A sensor in a rule that is not to run at some levels. -/
def atSensor : Surroundings :=
  .all [.eventKind "sensor"] (.not .whole) []

/-- What a sensor sends. -/
def sensed (level : Int64) : Event :=
  { kind := "sensor", fields := .ofList [("level", .int level)] }

/-- At a level of the list the two expressions have the same truth, also below a negation. -/
theorem evaluate_eq_on_first_level :
    ∃ k k' : Condition, (atSensor.fill (isOneOf "level" levels)).compile {} = .ok k ∧
      (atSensor.fill (equalsOne "level" levels)).compile {} = .ok k' ∧
      k.evaluate (sensed 1) = .false ∧ k'.evaluate (sensed 1) = .false := by
  have h : (atSensor.fill (isOneOf "level" levels)).compile {} = .ok (.all [.eventKind "sensor",
      .not (.compare "level" .within (.list [.int 1, .string "high"]))]) := rfl
  obtain ⟨k', ws, hk', hws, -, hsame⟩ := isMatch_eq_of_isOneOf h
  have hmem : Value.int 1 ∈ ws := by
    cases hws with
    | cons hfirst _ =>
      have hone : scalar "level" none (.int 1) = .ok _ := scalar_eq_ok_iff.2 hfirst
      rw [← Except.ok.inj hone]
      exact List.mem_cons_self
  have hsplits : ¬(sensed 1).Splits "level" ws := by
    rintro (rfl | ⟨v, hv, -, -, hne⟩)
    · cases hmem
    · have hone : (sensed 1).field? "level" = some (.int 1) := rfl
      obtain rfl := Option.some.inj (hone.symm.trans hv)
      exact hne _ hmem rfl
  exact ⟨_, k', h, hk', rfl, (hsame _ hsplits).symm.trans rfl⟩

/-- Below one negation the two forms differ on an event that can be compared with one of two items,
and on a list without items. -/
theorem isMatch_ne_below_negation :
    (∃ k k' : Condition, (atSensor.fill (isOneOf "level" levels)).compile {} = .ok k ∧
      (atSensor.fill (equalsOne "level" levels)).compile {} = .ok k' ∧
      k.isMatch (sensed 5) = true ∧ k'.isMatch (sensed 5) = false) ∧
    ∃ k k' : Condition, (atSensor.fill (isOneOf "level" [])).compile {} = .ok k ∧
      (atSensor.fill (equalsOne "level" [])).compile {} = .ok k' ∧
      k.isMatch (sensed 5) = false ∧ k'.isMatch (sensed 5) = true :=
  ⟨⟨_, _, rfl, rfl, rfl, rfl⟩, ⟨_, _, rfl, rfl, rfl, rfl⟩⟩

end Trigger

end Reflex
