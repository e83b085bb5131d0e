import Reflex.Proofs.Property.Integer
import Reflex.Proofs.Trigger.Acceptance
import Reflex.Proofs.Trigger.Locality

/-!
# Integers Beside Doubles

Two integers compare exactly. An integer beside a double is rounded to a double first, so the two
have the order of the numbers, but for an integer that is rounded to the very double: it equals the
double. Integers up to `2 ^ 53` are doubles themselves, so this happens beyond them only.

A trigger has a double for a literal unless the field is declared as an integer. In that case the
literal is an integer, too, and the comparison is exact.

## Main definitions

- `Trigger.literalOrder`: the order of an integer field and a literal that is a double.

## Main statements

- `Value.compare?_int_double`, `Value.compare?_double_int`: the order of the values.
- `Trigger.isMatch_of_double_literal`: the integers on which a comparison with a double is true.
- `Trigger.order_of_int_double`: where this is the order of the numbers.
-/

namespace Reflex

open Double (roundedOrder)

variable {x : Double} {q : ℚ} {i : Int64}

namespace Value

/-- An integer before a double is rounded. -/
theorem compare?_int_double (hx : x.toRat? = some q) (i : Int64) :
    (int i).compare? (.double x) = some (roundedOrder i.toInt q) :=
  Double.compare?_ofInt (Double.natAbs_toInt_lt_ceiling i) hx

/-- An integer after a double is rounded. -/
theorem compare?_double_int (hx : x.toRat? = some q) (i : Int64) :
    (double x).compare? (.int i) = some (roundedOrder i.toInt q).swap :=
  Double.compare?_ofInt_right (Double.natAbs_toInt_lt_ceiling i) hx

theorem compare?_int_int (i j : Int64) :
    (int i).compare? (.int j) = some (compare (i.toInt : ℚ) j.toInt) := by
  rw [compare?, Option.some_inj, ← cmp_eq_compare, ← cmp_eq_compare]
  exact (Int.cast_strictMono.cmp_map_eq i.toInt j.toInt).symm

end Value

/-- A comparison with a value that is no text asks for the order of the values. -/
theorem Operand.compareWith_single_of_compare? {v w : Value} {order : Ordering}
    (htext : ∀ s, w ≠ .string s) (h : v.compare? w = some order) (op : CompareOp) :
    compareWith v op (.single w) = Truth.ofBool (op.accepts order) := by
  cases w with
  | string s => exact absurd rfl (htext s)
  | bool | int | double | time => simp [compareWith, h]

namespace Trigger

/-- Whether a field is declared as an integer. -/
def isInteger (declared : Option Descriptor) : Bool :=
  declared.any (·.type == .int)

/-- The order of an integer field and a literal that is a double: a field that is declared as an
integer has an integer for a literal, and is not rounded. -/
def literalOrder (declared : Option Descriptor) (n : ℤ) (q : ℚ) : Ordering :=
  if isInteger declared then Ord.compare (n : ℚ) q else roundedOrder n q

section Literal

variable {declared : Option Descriptor} {v : Value}

/-- A literal that is a double stays one, unless its field is declared as an integer; then it is
this integer. -/
theorem LiteralValue.of_double (h : LiteralValue declared (.double x) v) :
    (isInteger declared = false ∧ v = .double x) ∨
      isInteger declared = true ∧ ∃ j : Int64, v = .int j ∧ x.toRat? = some (j.toInt : ℚ) := by
  cases declared with
  | none =>
    cases h
    exact .inl ⟨rfl, rfl⟩
  | some d =>
    have hv : d.normalize (.double x) = .ok v := h
    cases hd : d.type with
    | int =>
      have hint := Descriptor.hasType_of_normalize hv
      rw [hd] at hint
      cases hint with
      | int j =>
        have hspells := ((Descriptor.normalize_eq_ok_int_iff hd).1 hv).1
        exact .inr ⟨by simp [isInteger, hd], j, rfl, Json.spells_double_iff.1 hspells⟩
    | double =>
      rw [Descriptor.normalize_double hd] at hv
      simp only [Descriptor.normalizeDouble, Descriptor.rawDouble?] at hv
      split at hv
      · obtain ⟨-, -, hkept⟩ := bind_eq_ok.1 hv
        exact .inl ⟨by simp [isInteger, hd], (Except.ok.inj hkept).symm⟩
      · cases hv
    | string =>
      obtain ⟨s, hs, -⟩ := Descriptor.exists_text_of_normalize hd hv
      cases hs
    | bool =>
      rw [Descriptor.normalize_bool hd] at hv
      cases hv
    | time =>
      rw [Descriptor.normalize_time hd] at hv
      cases hv

/-- A literal that is a double has its order with every integer. -/
theorem LiteralValue.compare?_of_double (h : LiteralValue declared (.double x) v)
    (hx : x.toRat? = some q) (i : Int64) :
    (∀ s, v ≠ .string s) ∧
      (Value.int i).compare? v = some (literalOrder declared i.toInt q) := by
  rw [literalOrder]
  rcases h.of_double with ⟨hdouble, rfl⟩ | ⟨hint, j, rfl, hj⟩
  · rw [hdouble, if_neg Bool.false_ne_true]
    exact ⟨by simp, Value.compare?_int_double hx i⟩
  · obtain rfl : (j.toInt : ℚ) = q := Option.some.inj (hj.symm.trans hx)
    rw [hint, if_pos rfl]
    exact ⟨by simp, Value.compare?_int_int i j⟩

end Literal

section Match

variable {catalog : Catalog} {fixed : Option String} {field : String} {op : CompareOp}
  {literal : Literal} {c : Condition} {e : Event}

/-- A comparison with a double is true for the integers whose order with the literal the operator
accepts. -/
theorem isMatch_of_double_literal (hx : x.toRat? = some q) (hliteral : literal.json = .double x)
    (hcompile : compileBelow catalog fixed (.compare field op literal) = .ok c)
    (hfield : e.field? field = some (.int i)) :
    c.isMatch e = op.accepts (literalOrder (catalog.declared? fixed field) i.toInt q) := by
  obtain ⟨operand, hoperand, rfl⟩ := compileBelow_compare_eq_ok hcompile
  rw [hliteral] at hoperand
  cases operandValue_of_compileOperand hoperand with
  | single hlist htext hv =>
    obtain ⟨hnotext, horder⟩ := hv.compare?_of_double hx i
    rw [Condition.isMatch, Condition.evaluate, hfield]
    simp only
    rw [Operand.compareWith_single_of_compare? hnotext horder]
    cases op.accepts (literalOrder (catalog.declared? fixed field) i.toInt q) <;> rfl

end Match

/-- An integer has the order of the numbers with a double, unless it is rounded to it, which takes a
double that is nearest to it. A comparison that rounds the integer is true for the integers on the
right side of the literal, where those that are rounded to the literal equal it. -/
theorem order_of_int_double (hx : x.toRat? = some q) (i : Int64) :
    (Value.int i).compare? (.double x) = some (roundedOrder i.toInt q) ∧
    (Value.double x).compare? (.int i) = some (roundedOrder i.toInt q).swap ∧
    (roundedOrder i.toInt q = Ord.compare (i.toInt : ℚ) q ↔
      ((Double.ofInt i.toInt).toRat? = some q → (i.toInt : ℚ) = q)) ∧
    (i.toInt.natAbs ≤ 2 ^ 53 → roundedOrder i.toInt q = Ord.compare (i.toInt : ℚ) q) ∧
    ((Double.ofInt i.toInt).toRat? = some q →
      ∀ (y : Double) (p : ℚ), y.toRat? = some p → |q - i.toInt| ≤ |p - i.toInt|) ∧
    ∀ (catalog : Catalog) (fixed : Option String) (field : String) (op : CompareOp)
      (literal : Literal) (c : Condition) (e : Event), literal.json = .double x →
      compileBelow catalog fixed (.compare field op literal) = .ok c →
      e.field? field = some (.int i) →
      c.isMatch e = op.accepts (literalOrder (catalog.declared? fixed field) i.toInt q) :=
  ⟨Value.compare?_int_double hx i, Value.compare?_double_int hx i,
    Double.roundedOrder_eq_compare_iff, Double.roundedOrder_of_le,
    fun hrounded _ _ => Double.abs_ofInt_sub_le (Double.natAbs_toInt_lt_ceiling i) hrounded,
    fun _ _ _ _ _ _ _ hliteral hcompile hfield =>
      isMatch_of_double_literal hx hliteral hcompile hfield⟩

/-- One is after a half, and greater than a half in a trigger. -/
theorem order_of_int_fraction : ∃ (half : Double) (c : Condition),
    half.toRat? = some (1 / 2) ∧ (Value.int 1).compare? (.double half) = some .gt ∧
      compile {} (.compare "level" .gt (.ofJson (.double half))) = .ok c ∧
      c.isMatch { kind := "meter", fields := .ofList [("level", .int 1)] } = true := by
  let half : Double := .finite false 0x10000000000000 (-53) (by decide)
  have hhalf : half.toRat? = some (1 / 2) := by norm_num [half, Double.toRat?]
  obtain ⟨c, hcompile⟩ : ∃ c, compile {} (.compare "level" .gt (.ofJson (.double half))) = .ok c :=
    ⟨_, rfl⟩
  obtain ⟨horder, -, -, hsmall, -, hmatch⟩ := order_of_int_double hhalf 1
  have hone : (1 : Int64).toInt = 1 := by decide
  have hgreater : roundedOrder (Int64.toInt 1) (1 / 2) = .gt := by
    rw [hsmall (by decide), compare_gt_iff_gt, hone]
    norm_num
  refine ⟨half, c, hhalf, horder.trans (congrArg some hgreater), hcompile, ?_⟩
  rw [hmatch {} none _ _ _ c _ rfl hcompile rfl, literalOrder, if_neg (by decide), hgreater]
  rfl

/-- The integer after `2 ^ 53` equals this double, and a comparison for equality is true for it. -/
theorem order_of_rounded_int : ∃ (x : Double) (c : Condition),
    x.toRat? = some (2 ^ 53) ∧ (Value.int (2 ^ 53 + 1)).compare? (.double x) = some .eq ∧
      Ord.compare (((2 ^ 53 + 1 : Int64).toInt : ℤ) : ℚ) (2 ^ 53) = .gt ∧
      compile {} (.compare "level" .eq (.ofJson (.double x))) = .ok c ∧
      c.isMatch { kind := "meter", fields := .ofList [("level", .int (2 ^ 53 + 1))] } = true := by
  have hinteger : (2 ^ 53 + 1 : Int64).toInt = 2 ^ 53 + 1 := by decide
  refine ⟨.finite false 0x10000000000000 1 (by decide), _, ?_, ?_, ?_, rfl, ?_⟩
  · norm_num [Double.toRat?]
  · decide +kernel
  · rw [hinteger, compare_gt_iff_gt]
    norm_num
  · decide +kernel

end Trigger

end Reflex
