import Reflex.Proofs.Number.Nearest
import Reflex.Proofs.Number.Numeral
import Reflex.Proofs.Property.Validation

/-!
# Integer Properties

A property of integers accepts what denotes an integer of 64 bits, whether it is written as an
integer, as a double or as a text, and keeps this very integer. Bounds are doubles and an integer is
rounded to a double before it is compared with them, so it is accepted in the declared range, and
also outside of it if it is rounded to a bound.

## Main definitions

- `Json.Spells`: the integer that a raw document denotes.
- `Descriptor.Admits`: the numbers of the declared range.

## Main statements

- `Descriptor.normalize_eq_ok_int_iff`: what is accepted, and as what.
- `Descriptor.normalize_int_exact`: the same without bounds, and what is refused.
- `Descriptor.normalize_int_iff_of_bounds`: the same with bounds.
-/

namespace Reflex

/-- The integer that a raw document denotes. -/
inductive Json.Spells : Json → ℤ → Prop
  -- A number that was written as an integer.
  | int (n : ℤ) : Spells (.int n) n
  -- A double that is this number.
  | double {x : Double} {n : ℤ} (hnumber : x.toRat? = some (n : ℚ)) : Spells (.double x) n
  -- The text of the integer, with blanks around it or not.
  | text {s : String} {before numeral after : List Char} {n : ℤ}
      (htext : s.toList = before ++ numeral ++ after) (hnumeral : Decimal.Numeral numeral n)
      (hbefore : ∀ c ∈ before, Text.isBlankChar c = true)
      (hafter : ∀ c ∈ after, Text.isBlankChar c = true) : Spells (.string s) n

section Int64

variable {n : ℤ}

theorem exists_toInt_eq_iff : (∃ i : Int64, i.toInt = n) ↔ -2 ^ 63 ≤ n ∧ n < 2 ^ 63 := by
  constructor
  · rintro ⟨i, rfl⟩
    exact ⟨i.le_toInt, i.toInt_lt⟩
  · rintro ⟨hlow, hhigh⟩
    exact ⟨.ofInt n, Int64.toInt_ofInt_of_le hlow hhigh⟩

/-- What is found and fits into 64 bits is what was found. -/
theorem bind_int64OfInt?_eq_some_iff {x : Option ℤ} {i : Int64} :
    x.bind int64OfInt? = some i ↔ x = some i.toInt := by
  rw [Option.bind_eq_some_iff]
  constructor
  · rintro ⟨n, rfl, hi⟩
    rw [int64OfInt?_eq_some_iff.1 hi]
  · rintro rfl
    exact ⟨i.toInt, rfl, int64OfInt?_toInt i⟩

end Int64

namespace Json

variable {n : ℤ}

/-- A text spells the integer that it denotes without the blanks around it. -/
theorem spells_string_iff {s : String} :
    (string s).Spells n ↔ Decimal.Numeral (Text.trim s.toList) n := by
  constructor
  · intro h
    cases h with
    | text htext hnumeral hbefore hafter =>
      have hblank := fun c hc => hnumeral.isBlankChar_eq_false (c := c) hc
      rwa [htext, Text.trim_append hbefore hafter hnumeral.ne_nil
        (fun c hc => hblank c (List.mem_of_head? hc))
        fun c hc => hblank c (List.mem_of_getLast? hc)]
  · intro hnumeral
    obtain ⟨before, after, htext, hbefore, hafter⟩ := Text.exists_eq_append_trim s.toList
    exact .text htext hnumeral hbefore hafter

theorem spells_double_iff {x : Double} : (double x).Spells n ↔ x.toRat? = some (n : ℚ) := by
  constructor
  · intro h
    cases h with
    | double hnumber => exact hnumber
  · exact .double

end Json

namespace Descriptor

variable {d : Descriptor} {raw : Json} {n : ℤ} {i : Int64}

/-! ## Forms of integers -/

/-- A raw document is read as the integer of 64 bits that it spells. -/
theorem rawInt?_eq_some_iff : rawInt? raw = some i ↔ raw.Spells i.toInt := by
  cases raw with
  | int n =>
    rw [rawInt?, int64OfInt?_eq_some_iff]
    constructor
    · rintro rfl
      exact .int _
    · intro h
      cases h
      rfl
  | double x =>
    rw [rawInt?, bind_int64OfInt?_eq_some_iff, Double.toInt?_eq_some_iff,
      Json.spells_double_iff]
  | string s =>
    have hlow := i.le_toInt
    have hhigh := i.toInt_lt
    have hfits : Decimal.fitsInt64 i.toInt = true := fitsInt64_iff.2 (by omega)
    rw [rawInt?, bind_int64OfInt?_eq_some_iff, Decimal.readInt64?_eq_some_iff,
      and_iff_left hfits, Json.spells_string_iff]
  | null | bool | array | object =>
    constructor <;> intro h <;> cases h

/-- What is not in the form of an integer of 64 bits has the wrong shape. -/
theorem normalizeInt_of_not_spells (h : ∀ i : Int64, ¬ raw.Spells i.toInt) :
    d.normalizeInt raw = .error (d.mismatch raw) := by
  have hnone : rawInt? raw = none :=
    Option.eq_none_iff_forall_ne_some.2 fun i hi => h i (rawInt?_eq_some_iff.1 hi)
  rw [normalizeInt, hnone]

/-- An integer is accepted as it is if it is in the range after it is rounded. -/
theorem normalize_eq_ok_int_iff (htype : d.type = .int) : d.normalize raw = .ok (.int i) ↔
    raw.Spells i.toInt ∧ d.checkRange (.ofInt i.toInt) = .ok () := by
  rw [normalize_int htype, normalizeInt, ← rawInt?_eq_some_iff]
  cases rawInt? raw with
  | none => simp
  | some j =>
    simp only [Option.some_inj]
    rw [bind_eq_ok]
    constructor
    · rintro ⟨⟨⟩, hrange, hi⟩
      obtain ⟨rfl⟩ : j = i := by simpa using Except.ok.inj hi
      exact ⟨rfl, hrange⟩
    · rintro ⟨rfl, hrange⟩
      exact ⟨(), hrange, rfl⟩

/-! ## No bounds -/

/-- Without bounds an integer property accepts what denotes an integer of 64 bits, as this very
integer, and everything else is of the wrong shape. -/
theorem normalize_int_exact (htype : d.type = .int) (hmin : d.constraints.min = none)
    (hmax : d.constraints.max = none) (raw : Json) :
    (∀ n : ℤ, (∃ i : Int64, i.toInt = n ∧ d.normalize raw = .ok (.int i)) ↔
      raw.Spells n ∧ -2 ^ 63 ≤ n ∧ n < 2 ^ 63) ∧
    ((¬ ∃ n : ℤ, raw.Spells n ∧ -2 ^ 63 ≤ n ∧ n < 2 ^ 63) →
      d.normalize raw = .error (.typeMismatch d.name .int raw.kind)) := by
  have hrange (x : Double) : d.checkRange x = .ok () :=
    checkRange_eq_ok.2 ⟨by simp [hmin], by simp [hmax]⟩
  constructor
  · intro n
    rw [← exists_toInt_eq_iff]
    constructor
    · rintro ⟨i, rfl, hi⟩
      exact ⟨((normalize_eq_ok_int_iff htype).1 hi).1, i, rfl⟩
    · rintro ⟨hspells, i, rfl⟩
      exact ⟨i, rfl, (normalize_eq_ok_int_iff htype).2 ⟨hspells, hrange _⟩⟩
  · intro hnone
    have hshape : d.normalizeInt raw = .error (d.mismatch raw) :=
      normalizeInt_of_not_spells fun i hi => hnone ⟨i.toInt, hi, exists_toInt_eq_iff.1 ⟨i, rfl⟩⟩
    rw [normalize_int htype, hshape, mismatch, htype]

/-- The least integer of 64 bits is accepted as a double, and the one after the greatest is
not accepted. -/
theorem normalize_int_exact_at_ends :
    ({ name := "count", type := .int } : Descriptor).normalize
        (.double (.finite true 0x10000000000000 11 (by decide))) = .ok (.int Int64.minValue) ∧
      ({ name := "count", type := .int } : Descriptor).normalize (.int 0x8000000000000000) =
        .error (.typeMismatch "count" .int "number") := by
  have hleast := (normalize_int_exact (d := { name := "count", type := .int }) rfl rfl rfl
    (.double (.finite true 0x10000000000000 11 (by decide)))).1 (-2 ^ 63)
  have hbeyond := (normalize_int_exact (d := { name := "count", type := .int }) rfl rfl rfl
    (.int 0x8000000000000000)).2
  constructor
  · obtain ⟨i, hi, haccepted⟩ := hleast.2
      ⟨.double (by norm_num [Double.toRat?]), le_rfl, by norm_num⟩
    obtain rfl : i = Int64.minValue := Int64.toInt_inj.1 hi
    exact haccepted
  · refine hbeyond ?_
    rintro ⟨n, hspells, -, hn⟩
    cases hspells
    norm_num at hn

/-! ## Bounds -/

/-- The declared lower bound as a number. -/
def least? (d : Descriptor) : Option ℚ :=
  d.constraints.min.bind Double.toRat?

/-- The declared upper bound as a number. -/
def most? (d : Descriptor) : Option ℚ :=
  d.constraints.max.bind Double.toRat?

/-- The numbers of the declared range. -/
structure Admits (d : Descriptor) (q : ℚ) : Prop where
  /-- They are not below the lower bound. -/
  least_le : ∀ p, d.least? = some p → p ≤ q
  /-- They are not above the upper bound. -/
  le_most : ∀ p, d.most? = some p → q ≤ p

/-- An integer passes the bounds where it is on their inner side, or is rounded to them. -/
theorem checkRange_ofInt_eq_ok_iff
    (hmin : ∀ x, d.constraints.min = some x → x.isFinite = true)
    (hmax : ∀ x, d.constraints.max = some x → x.isFinite = true)
    (hrange : (n.natAbs : ℚ) < Double.ceiling) :
    d.checkRange (.ofInt n) = .ok () ↔
      (∀ p, d.least? = some p → p ≤ n ∨ (Double.ofInt n).toRat? = some p) ∧
        ∀ p, d.most? = some p → (n : ℚ) ≤ p ∨ (Double.ofInt n).toRat? = some p := by
  rw [checkRange_eq_ok, least?, most?]
  refine and_congr ?_ ?_
  · cases hleast : d.constraints.min with
    | none => simp
    | some x =>
      obtain ⟨q, hq⟩ := Double.isFinite_iff_exists_toRat?.1 (hmin x hleast)
      simp [hq, Double.ofInt_lt_eq_false_iff hrange hq]
  · cases hmost : d.constraints.max with
    | none => simp
    | some x =>
      obtain ⟨q, hq⟩ := Double.isFinite_iff_exists_toRat?.1 (hmax x hmost)
      simp [hq, Double.lt_ofInt_eq_false_iff hrange hq]

/-- With finite bounds an integer property accepts every integer of the declared range, and beyond
`2 ^ 53` those that are rounded to a bound, too. -/
theorem normalize_int_iff_of_bounds (htype : d.type = .int)
    (hmin : ∀ x, d.constraints.min = some x → x.isFinite = true)
    (hmax : ∀ x, d.constraints.max = some x → x.isFinite = true) (raw : Json) (i : Int64) :
    (d.normalize raw = .ok (.int i) ↔ raw.Spells i.toInt ∧
      (∀ p, d.least? = some p → p ≤ i.toInt ∨ (Double.ofInt i.toInt).toRat? = some p) ∧
      ∀ p, d.most? = some p → (i.toInt : ℚ) ≤ p ∨ (Double.ofInt i.toInt).toRat? = some p) ∧
    (raw.Spells i.toInt → d.Admits i.toInt → d.normalize raw = .ok (.int i)) ∧
    (i.toInt.natAbs ≤ 2 ^ 53 → d.normalize raw = .ok (.int i) → d.Admits i.toInt) := by
  have hbounds := checkRange_ofInt_eq_ok_iff hmin hmax (Double.natAbs_toInt_lt_ceiling i)
  have haccepted := @normalize_eq_ok_int_iff d raw i htype
  rw [hbounds] at haccepted
  refine ⟨haccepted, fun hspells hadmits => ?_, fun hsmall hi => ?_⟩
  · exact haccepted.2
      ⟨hspells, fun p hp => .inl (hadmits.least_le p hp), fun p hp => .inl (hadmits.le_most p hp)⟩
  · obtain ⟨-, hleast, hmost⟩ := haccepted.1 hi
    have hexact := Double.toRat?_ofInt_of_le hsmall
    constructor
    · intro p hp
      exact (hleast p hp).elim id fun h => (Option.some.inj (h.symm.trans hexact)).le
    · intro p hp
      exact (hmost p hp).elim id fun h => (Option.some.inj (hexact.symm.trans h)).le

/-- The upper bound is accepted itself. -/
theorem normalize_int_iff_of_bounds_on_edge :
    (({ name := "count", type := .int } : Descriptor).withRange (.zero false)
      (.finite false 0x10000000000000 1 (by decide))).normalize (.int 0x20000000000000) =
        .ok (.int 0x20000000000000) := by
  have hinteger : (0x20000000000000 : Int64).toInt = 0x20000000000000 := by decide
  refine (normalize_int_iff_of_bounds rfl ?_ ?_ (.int 0x20000000000000) 0x20000000000000).2.1
    (.int 0x20000000000000) ⟨?_, ?_⟩
  · rintro x ⟨⟩
    rfl
  · rintro x ⟨⟩
    rfl
  · rintro p ⟨⟩
    norm_num [hinteger]
  · rintro p ⟨⟩
    norm_num [hinteger]

/-- The integer after the upper bound is accepted, too, for it is rounded to the bound. -/
theorem exists_accepted_above_most : ∃ d : Descriptor, d.type = .int ∧ d.least? = some 0 ∧
    d.most? = some (2 ^ 53) ∧
      d.normalize (.int (2 ^ 53 + 1)) = .ok (.int (2 ^ 53 + 1)) ∧ ¬ d.Admits (2 ^ 53 + 1) := by
  have hmost : (0x10000000000000 * 2 ^ (1 : ℤ) : ℚ) = 2 ^ 53 := by norm_num
  refine ⟨({ name := "count", type := .int } : Descriptor).withRange (.zero false)
    (.finite false 0x10000000000000 1 (by decide)), rfl, ?_, ?_, ?_, fun h => ?_⟩
  · exact congrArg some (zero_mul _)
  · exact congrArg some hmost
  · decide +kernel
  · have hle := h.le_most (2 ^ 53) (congrArg some hmost)
    norm_num at hle

end Descriptor

end Reflex
