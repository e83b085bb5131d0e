import Reflex.Proofs.Trigger.Membership
import Reflex.Proofs.Value.Order

/-!
# Complements of Comparisons

Of two complementary operators one accepts exactly the orders that the other one refuses. They can
have the same literals, so a comparison compiles exactly if its complement does. Neither of them
says anything of an event that lacks the field, or whose value has no order with the literal, and
elsewhere one is true where the other one is false. So the negation of the complement can take the
place of a comparison, whatever stands around it and whichever event kind is fixed there.

## Main definitions

- `CompareOp.complement?`: the operator that accepts what another one refuses.
- `Trigger.Interchangeable`: expressions that compile together and have the same truth.

## Main statements

- `Operand.compareWith_complement`: the truth of the complement.
- `Trigger.Interchangeable.fill`: parts that are interchangeable at their place make expressions
  that are interchangeable.
- `Trigger.interchangeable_complement`: a comparison and the negation of its complement.
- `Trigger.consistent_of_complement`: the order of values and the comparisons that ask for it.
-/

namespace Reflex

/-! ## Operators -/

namespace CompareOp

/-- The operator that accepts exactly the orders which an operator refuses. There is none for the
operators that do not ask for an order. -/
def complement? : CompareOp → Option CompareOp
  | .eq => some .ne
  | .ne => some .eq
  | .lt => some .ge
  | .ge => some .lt
  | .le => some .gt
  | .gt => some .le
  | .within | .contains => none

variable {op other : CompareOp}

theorem complement?_symm (h : op.complement? = some other) : other.complement? = some op := by
  cases op <;> cases h <;> rfl

theorem accepts_complement (h : op.complement? = some other) (order : Ordering) :
    other.accepts order = !op.accepts order := by
  cases op <;> cases h <;> cases order <;> rfl

theorem isOrdering_complement (h : op.complement? = some other) :
    other.isOrdering = op.isOrdering := by
  cases op <;> cases h <;> rfl

theorem ne_within_of_complement? (h : op.complement? = some other) : op ≠ .within := by
  rintro rfl
  cases h

theorem ne_contains_of_complement? (h : op.complement? = some other) : op ≠ .contains := by
  rintro rfl
  cases h

end CompareOp

/-! ## Truths -/

theorem Truth.negate_ofBool (b : Bool) : (ofBool b).negate = ofBool !b := by
  cases b <;> rfl

section Truth

variable {op other : CompareOp} {v : Value}

/-- The complement has the opposite truth, and is unknown where the operator is. -/
theorem Operand.compareWith_complement (h : op.complement? = some other) (operand : Operand) :
    operand.compareWith v other = (operand.compareWith v op).negate := by
  cases operand with
  | list ws =>
    -- only `in` asks for a list
    cases op <;> cases h <;> rfl
  | single w =>
    have hback := CompareOp.complement?_symm h
    rw [compareWith_single (CompareOp.ne_contains_of_complement? h),
      compareWith_single (CompareOp.ne_contains_of_complement? hback)]
    cases v.compare? w with
    | none => rfl
    | some order =>
      rw [Option.elim_some, Option.elim_some, Truth.negate_ofBool,
        CompareOp.accepts_complement h]

/-- A comparison and the negation of its complement have the same truth. -/
theorem Condition.value_not_complement (h : op.complement? = some other) (e : Event)
    (field : String) (operand : Operand) :
    (Condition.not (.compare field other operand)).value e =
      (Condition.compare field op operand).value e := by
  rw [value_not, value, value]
  cases e.field? field with
  | none => rfl
  | some v =>
    dsimp only
    rw [Operand.compareWith_complement h, Truth.negate_negate]

end Truth

namespace Trigger

/-! ## Interchangeable expressions -/

/-- Expressions that can take each other's place below a fixed event kind. -/
structure Interchangeable (catalog : Catalog) (fixed : Option String) (t u : Trigger) : Prop where
  /-- Both compile, or neither does. -/
  compiles : (∃ c, compileBelow catalog fixed t = .ok c) ↔ ∃ d, compileBelow catalog fixed u = .ok d
  /-- Their conditions have the same truth on every event. -/
  truths : ∀ c d, compileBelow catalog fixed t = .ok c → compileBelow catalog fixed u = .ok d →
    ∀ e, c.evaluate e = d.evaluate e

section Interchangeable

variable {catalog : Catalog} {fixed : Option String} {t u : Trigger}

theorem Interchangeable.symm (h : Interchangeable catalog fixed t u) :
    Interchangeable catalog fixed u t where
  compiles := h.compiles.symm
  truths c d hc hd e := (h.truths d c hd hc e).symm

theorem Interchangeable.of_exists
    (hto : ∀ c, compileBelow catalog fixed t = .ok c →
      ∃ d, compileBelow catalog fixed u = .ok d ∧ ∀ e, c.evaluate e = d.evaluate e)
    (hfrom : ∀ d, compileBelow catalog fixed u = .ok d →
      ∃ c, compileBelow catalog fixed t = .ok c) :
    Interchangeable catalog fixed t u where
  compiles := by
    constructor
    · rintro ⟨c, hc⟩
      obtain ⟨d, hd, -⟩ := hto c hc
      exact ⟨d, hd⟩
    · rintro ⟨d, hd⟩
      exact hfrom d hd
  truths c d hc hd := by
    obtain ⟨d', hd', htruth⟩ := hto c hc
    obtain rfl := Except.ok.inj (hd.symm.trans hd')
    exact htruth

/-- With an interchangeable part at a place, an expression that compiles still does, and has the
same truth. -/
theorem Interchangeable.exists_fill {place : Surroundings}
    (h : Interchangeable catalog (place.kind? fixed) t u) (ht : t.namedKind? = none)
    (hu : u.namedKind? = none) {k : Condition}
    (hk : compileBelow catalog fixed (place.fill t) = .ok k) :
    ∃ k', compileBelow catalog fixed (place.fill u) = .ok k' ∧
      ∀ e, k.evaluate e = k'.evaluate e := by
  obtain ⟨opening, c, hc, rfl, -, hother⟩ := exists_of_compileBelow_fill ht place hk
  obtain ⟨d, hd⟩ := h.compiles.1 ⟨c, hc⟩
  refine ⟨opening.fill d, hother u d hu hd, fun e => ?_⟩
  have htruth := h.truths c d hc hd e
  rw [Condition.evaluate_eq_value, Condition.evaluate_eq_value] at htruth
  exact Condition.evaluate_fill_congr htruth opening

/-- Parts that are interchangeable below the kind that is fixed at a place make expressions that are
interchangeable. The parts themselves name no kind, since an `all` would fix it. -/
theorem Interchangeable.fill {place : Surroundings}
    (h : Interchangeable catalog (place.kind? fixed) t u) (ht : t.namedKind? = none)
    (hu : u.namedKind? = none) :
    Interchangeable catalog fixed (place.fill t) (place.fill u) :=
  .of_exists (fun _ hk => h.exists_fill ht hu hk) fun _ hk' =>
    (h.symm.exists_fill hu ht hk').imp fun _ hk => hk.1

end Interchangeable

/-! ## Comparisons and their complements -/

section Complement

variable {catalog : Catalog} {fixed : Option String} {field : String} {op other : CompareOp}
  {literal : Literal} {c : Condition}

/-- Complementary operators can have the same literals, with the same values. -/
theorem compileOperand_complement {declared : Option Descriptor} {raw : Json} {operand : Operand}
    (h : op.complement? = some other)
    (hoperand : compileOperand field op declared raw = .ok operand) :
    compileOperand field other declared raw = .ok operand := by
  have hback := CompareOp.complement?_symm h
  rw [compileOperand_eq_bind (CompareOp.ne_within_of_complement? h)
    (CompareOp.ne_contains_of_complement? h)] at hoperand
  rw [compileOperand_eq_bind (CompareOp.ne_within_of_complement? hback)
    (CompareOp.ne_contains_of_complement? hback)]
  obtain ⟨v, hv, hvalue⟩ := bind_eq_ok.1 hoperand
  refine bind_eq_ok.2 ⟨v, hv, ?_⟩
  cases v with
  | bool b =>
    dsimp only at hvalue ⊢
    split at hvalue
    next => cases hvalue
    next hordering =>
      -- neither operator asks which of two truth values is greater
      rw [CompareOp.isOrdering_complement h, if_neg hordering]
      exact hvalue
  | _ => exact hvalue

/-- If a comparison compiles, then so does its complement, with the same operand. -/
theorem compileBelow_complement (h : op.complement? = some other)
    (hc : compileBelow catalog fixed (.compare field op literal) = .ok c) :
    ∃ operand, c = .compare field op operand ∧
      compileBelow catalog fixed (.compare field other literal) =
        .ok (.compare field other operand) := by
  have hfield : field ≠ "" := by
    rintro rfl
    cases hc
  obtain ⟨operand, hoperand, rfl⟩ := compileBelow_compare_eq_ok hc
  refine ⟨operand, rfl, ?_⟩
  rw [compileBelow, if_neg hfield, compileOperand_complement h hoperand]
  rfl

/-- A comparison and the negation of its complement are interchangeable below every event kind. -/
theorem interchangeable_complement (catalog : Catalog) (fixed : Option String) (field : String)
    (literal : Literal) (h : op.complement? = some other) :
    Interchangeable catalog fixed (.compare field op literal)
      (.not (.compare field other literal)) := by
  refine .of_exists (fun c hc => ?_) fun d hd => ?_
  · obtain ⟨operand, rfl, hother⟩ := compileBelow_complement h hc
    refine ⟨.not (.compare field other operand), ?_, fun e => ?_⟩
    · rw [compileBelow, hother]
      rfl
    · rw [Condition.evaluate_eq_value, Condition.evaluate_eq_value,
        Condition.value_not_complement h]
  · obtain ⟨c, hc, -⟩ := compileBelow_not_eq_ok hd
    obtain ⟨operand, -, hop⟩ := compileBelow_complement (CompareOp.complement?_symm h) hc
    exact ⟨.compare field op operand, hop⟩

end Complement

/-- The order of two values is reversed when it is seen from the other one, and values are equal
exactly if they are of one kind and have the order of equals. Take any catalog, and any expression
with a comparison at some place whose operator has a complement. The expression with the negation of
the complement at this place compiles exactly if the expression does, and then both have the same
truth on every event. -/
theorem consistent_of_complement :
    (∀ v w : Value, w.compare? v = (v.compare? w).map Ordering.swap) ∧
    (∀ v w : Value, v.same w = true ↔ v.OfOneKind w ∧ v.compare? w = some .eq) ∧
    ∀ op other : CompareOp, op.complement? = some other →
      ∀ (catalog : Catalog) (place : Surroundings) (field : String) (literal : Literal),
        ((∃ k, (place.fill (.compare field op literal)).compile catalog = .ok k) ↔
          ∃ k', (place.fill (.not (.compare field other literal))).compile catalog = .ok k') ∧
        ∀ k k', (place.fill (.compare field op literal)).compile catalog = .ok k →
          (place.fill (.not (.compare field other literal))).compile catalog = .ok k' →
          ∀ e, k.evaluate e = k'.evaluate e := by
  refine ⟨Value.compare?_swap, fun _ _ => Value.same_iff, ?_⟩
  intro op other h catalog place field literal
  have hplace : Interchangeable catalog none (place.fill (.compare field op literal))
      (place.fill (.not (.compare field other literal))) :=
    (interchangeable_complement catalog (place.kind? none) field literal h).fill rfl rfl
  exact ⟨hplace.compiles, hplace.truths⟩

/-- The events of meters, whose level is a double. -/
def meters : Catalog :=
  Catalog.registerEvent {} { kind := "meter", fields := [{ name := "level", type := .double }] }

/-- A meter that is off, or for which something does not hold. -/
def atMeter : Surroundings :=
  .all [.eventKind "meter"] (.any [.exists "off"] (.not .whole) []) []

/-- What a meter sends. -/
def metered (level : Value) : Event :=
  { kind := "meter", fields := .ofList [("level", level)] }

/-- That a level is not less than five, and that it is not the case that it is not at least five.
Both are known of an integer, which is compared with a double, and unknown of a text. -/
theorem consistent_on_meter : ∃ k k' : Condition,
    (atMeter.fill (.compare "level" .lt (.ofJson (.int 5)))).compile meters = .ok k ∧
    (atMeter.fill (.not (.compare "level" .ge (.ofJson (.int 5))))).compile meters = .ok k' ∧
    k.evaluate (metered (.int 7)) = .true ∧ k'.evaluate (metered (.int 7)) = .true ∧
    k.evaluate (metered (.string "high")) = .unknown ∧
    k'.evaluate (metered (.string "high")) = .unknown := by
  obtain ⟨k, hk, hseven, hhigh⟩ : ∃ k : Condition,
      (atMeter.fill (.compare "level" .lt (.ofJson (.int 5)))).compile meters = .ok k ∧
        k.evaluate (metered (.int 7)) = .true ∧
        k.evaluate (metered (.string "high")) = .unknown :=
    ⟨_, rfl, by decide +kernel, by decide +kernel⟩
  obtain ⟨-, -, hcomplement⟩ := consistent_of_complement
  obtain ⟨hcompiles, htruths⟩ :=
    hcomplement .lt .ge rfl meters atMeter "level" (.ofJson (.int 5))
  obtain ⟨k', hk'⟩ := hcompiles.1 ⟨k, hk⟩
  exact ⟨k, k', hk, hk', hseven, (htruths k k' hk hk' _).symm.trans hseven, hhigh,
    (htruths k k' hk hk' _).symm.trans hhigh⟩

end Trigger

end Reflex
