import Reflex.Property.Validation
import Reflex.Proofs.Except
import Reflex.Proofs.TimeOfDay

/-!
# What Validation Accepts

Validation produces a value of the declared type, and accepts it again, unchanged. A time that it
produced has no fraction, so the raw form of the time keeps all of it.

## Main definitions

- `Value.HasType`: the values of a type.

## Main statements

- `Descriptor.hasType_of_normalize`: validation produces values of the declared type.
- `Descriptor.revalidate_int`, `revalidate_time`, `revalidate_text`: what is accepted unchanged.
- `Descriptor.revalidate_of_normalize`: validation of its own results changes nothing.
- `Descriptor.exists_double_of_revalidate`: what a property of doubles holds.
-/

namespace Reflex

theorem fitsInt64_iff {n : Int} :
    Decimal.fitsInt64 n = true ↔ -0x8000000000000000 ≤ n ∧ n < 0x8000000000000000 := by
  unfold Decimal.fitsInt64 Word.half
  rw [Bool.and_eq_true, decide_eq_true_iff, decide_eq_true_iff]
  rfl

/-- An integer of 64 bits fits into 64 bits. -/
theorem int64OfInt?_toInt (n : Int64) : int64OfInt? n.toInt = some n := by
  have hlow := n.le_toInt
  have hhigh := n.toInt_lt
  rw [int64OfInt?, if_pos (fitsInt64_iff.2 (by omega)), Int64.ofInt_toInt]

/-- The integer of 64 bits that is found equals the given one. -/
theorem int64OfInt?_eq_some_iff {n : Int} {i : Int64} : int64OfInt? n = some i ↔ i.toInt = n := by
  constructor
  · intro h
    unfold int64OfInt? at h
    split at h
    next hfits =>
      obtain rfl := Option.some.inj h
      obtain ⟨hlow, hhigh⟩ := fitsInt64_iff.1 hfits
      exact Int64.toInt_ofInt_of_le (by omega) (by omega)
    next => cases h
  · rintro rfl
    exact int64OfInt?_toInt i

/-- The values of a type. -/
inductive Value.HasType : Value → PropertyType → Prop
  -- A text.
  | string (s : String) : HasType (.string s) .string
  -- An integer of 64 bits.
  | int (n : Int64) : HasType (.int n) .int
  -- A finite double.
  | double {x : Double} (hfinite : x.isFinite = true) : HasType (.double x) .double
  -- A truth value.
  | bool (b : Bool) : HasType (.bool b) .bool
  -- A time of day.
  | time (t : TimeOfDay) : HasType (.time t) .time

namespace Descriptor

variable {d : Descriptor} {raw : Json} {v : Value}

theorem normalize_int (htype : d.type = .int) : d.normalize raw = d.normalizeInt raw := by
  unfold normalize
  rw [htype]

theorem normalize_double (htype : d.type = .double) :
    d.normalize raw = d.normalizeDouble raw := by
  unfold normalize
  rw [htype]

theorem normalize_bool (htype : d.type = .bool) : d.normalize raw = d.normalizeBool raw := by
  unfold normalize
  rw [htype]

theorem normalize_time (htype : d.type = .time) : d.normalize raw = d.normalizeTime raw := by
  unfold normalize
  rw [htype]

theorem normalize_text {s : String} (htype : d.type = .string) :
    d.normalize (.string s) = d.normalizeText s := by
  unfold normalize
  simp only [htype]

/-- A text that is accepted is kept. -/
theorem eq_of_normalizeText {s : String} (h : d.normalizeText s = .ok v) : v = .string s := by
  unfold normalizeText at h
  split at h <;> split at h <;> first | exact (Except.ok.inj h).symm | cases h

/-- A text is accepted as it is, and nothing but a text. -/
theorem exists_text_of_normalize (htype : d.type = .string) (h : d.normalize raw = .ok v) :
    ∃ s, raw = .string s ∧ v = .string s := by
  unfold normalize at h
  simp only [htype] at h
  split at h
  next s => exact ⟨s, rfl, eq_of_normalizeText h⟩
  next => cases h

/-- A text without a refinement is accepted unchanged. -/
theorem revalidate_text {s : String} (htype : d.type = .string) (hplain : d.subtype = .none)
    (hempty : d.constraints.nonEmpty = false) : d.revalidate (.string s) = .ok (.string s) := by
  rw [revalidate, Value.toRaw, normalize_text htype, normalizeText, hplain]
  simp [hempty]

/-- An integer that is accepted is in the declared range. -/
theorem exists_int_of_normalizeInt (h : d.normalizeInt raw = .ok v) :
    ∃ n, v = .int n ∧ d.checkRange (Double.ofInt n.toInt) = .ok () := by
  unfold normalizeInt at h
  split at h
  next n _ =>
    obtain ⟨⟨⟩, hrange, hv⟩ := bind_eq_ok.1 h
    exact ⟨n, (Except.ok.inj hv).symm, hrange⟩
  next => cases h

/-- An integer in the declared range is accepted unchanged. -/
theorem revalidate_int {n : Int64} (htype : d.type = .int)
    (hrange : d.checkRange (Double.ofInt n.toInt) = .ok ()) :
    d.revalidate (.int n) = .ok (.int n) := by
  rw [revalidate, normalize_int htype]
  simp only [Value.toRaw, normalizeInt, rawInt?, int64OfInt?_toInt]
  exact bind_eq_ok.2 ⟨(), hrange, rfl⟩

theorem revalidate_of_normalizeInt (htype : d.type = .int) (h : d.normalizeInt raw = .ok v) :
    d.revalidate v = .ok v := by
  obtain ⟨n, rfl, hrange⟩ := exists_int_of_normalizeInt h
  exact revalidate_int htype hrange

/-- A number is in the declared range when it is not outside of either bound. -/
theorem checkRange_eq_ok {x : Double} : d.checkRange x = .ok () ↔
    (∀ least, d.constraints.min = some least → x.lt least = false) ∧
      ∀ most, d.constraints.max = some most → most.lt x = false := by
  unfold checkRange
  cases d.constraints.min <;> cases d.constraints.max <;> simp

/-- A double that is accepted is finite and in the declared range. -/
theorem exists_double_of_normalizeDouble (h : d.normalizeDouble raw = .ok v) :
    ∃ x, v = .double x ∧ x.isFinite = true ∧ d.checkRange x = .ok () := by
  unfold normalizeDouble at h
  split at h
  next x _ =>
    split at h
    next hfinite =>
      obtain ⟨⟨⟩, hrange, hv⟩ := bind_eq_ok.1 h
      exact ⟨x, (Except.ok.inj hv).symm, hfinite, hrange⟩
    next => cases h
  next => cases h

theorem revalidate_of_normalizeDouble (htype : d.type = .double)
    (h : d.normalizeDouble raw = .ok v) : d.revalidate v = .ok v := by
  obtain ⟨x, rfl, hfinite, hrange⟩ := exists_double_of_normalizeDouble h
  rw [revalidate, normalize_double htype]
  simp only [Value.toRaw, if_pos hfinite, normalizeDouble, rawDouble?]
  exact bind_eq_ok.2 ⟨(), hrange, rfl⟩

/-- What is accepted for a truth value is one. -/
theorem exists_bool_of_normalizeBool (h : d.normalizeBool raw = .ok v) : ∃ b, v = .bool b := by
  unfold normalizeBool at h
  split at h
  next b _ => exact ⟨b, (Except.ok.inj h).symm⟩
  next => cases h

theorem revalidate_of_normalizeBool (htype : d.type = .bool) (h : d.normalizeBool raw = .ok v) :
    d.revalidate v = .ok v := by
  obtain ⟨b, rfl⟩ := exists_bool_of_normalizeBool h
  rw [revalidate, normalize_bool htype]
  rfl

/-- A time that is accepted is made from a clock. -/
theorem exists_clock_of_normalizeTime (h : d.normalizeTime raw = .ok v) :
    ∃ t hour minute second, v = .time t ∧
      TimeOfDay.ofClock? hour minute second 0 = some t := by
  unfold normalizeTime at h
  split at h
  next s =>
    cases hread : TimeOfDay.read? s with
    | some t =>
      rw [hread] at h
      obtain ⟨hour, minute, second, hclock⟩ := TimeOfDay.exists_clock_of_read? hread
      exact ⟨t, hour, minute, second, (Except.ok.inj h).symm, hclock⟩
    | none =>
      rw [hread] at h
      cases h
  next fields =>
    cases hread : clockField? fields with
    | some t =>
      rw [hread] at h
      obtain ⟨hour, -, hrest⟩ := Option.bind_eq_some_iff.1 hread
      obtain ⟨minute, -, hclock⟩ := Option.bind_eq_some_iff.1 hrest
      exact ⟨t, hour, minute, 0, (Except.ok.inj h).symm, hclock⟩
    | none =>
      rw [hread] at h
      cases h
  next => cases h

/-- A time that is made from a clock is accepted unchanged. -/
theorem revalidate_time {t : TimeOfDay} {hour minute second : Nat} (htype : d.type = .time)
    (hclock : TimeOfDay.ofClock? hour minute second 0 = some t) :
    d.revalidate (.time t) = .ok (.time t) := by
  rw [revalidate, normalize_time htype]
  simp only [Value.toRaw, normalizeTime, TimeOfDay.read?_secondText hclock]

theorem revalidate_of_normalizeTime (htype : d.type = .time) (h : d.normalizeTime raw = .ok v) :
    d.revalidate v = .ok v := by
  obtain ⟨t, hour, minute, second, rfl, hclock⟩ := exists_clock_of_normalizeTime h
  exact revalidate_time htype hclock

/-- What validation produced it accepts unchanged. -/
theorem revalidate_of_normalize (h : d.normalize raw = .ok v) : d.revalidate v = .ok v := by
  cases hd : d.type with
  | string =>
    obtain ⟨s, rfl, rfl⟩ := exists_text_of_normalize hd h
    exact h
  | int => exact revalidate_of_normalizeInt hd (normalize_int hd ▸ h)
  | double => exact revalidate_of_normalizeDouble hd (normalize_double hd ▸ h)
  | bool => exact revalidate_of_normalizeBool hd (normalize_bool hd ▸ h)
  | time => exact revalidate_of_normalizeTime hd (normalize_time hd ▸ h)

/-- Validation produces values of the declared type. -/
theorem hasType_of_normalize (h : d.normalize raw = .ok v) : v.HasType d.type := by
  cases hd : d.type with
  | string =>
    obtain ⟨s, -, rfl⟩ := exists_text_of_normalize hd h
    exact .string s
  | int =>
    obtain ⟨n, rfl, -⟩ := exists_int_of_normalizeInt (normalize_int hd ▸ h)
    exact .int n
  | double =>
    obtain ⟨x, rfl, hfinite, -⟩ := exists_double_of_normalizeDouble (normalize_double hd ▸ h)
    exact .double hfinite
  | bool =>
    obtain ⟨b, rfl⟩ := exists_bool_of_normalizeBool (normalize_bool hd ▸ h)
    exact .bool b
  | time =>
    obtain ⟨t, -, -, -, rfl, -⟩ := exists_clock_of_normalizeTime (normalize_time hd ▸ h)
    exact .time t

/-- A property of doubles holds a finite double in the declared range. -/
theorem exists_double_of_revalidate (htype : d.type = .double) (h : d.revalidate v = .ok v) :
    ∃ x, v = .double x ∧ x.isFinite = true ∧ d.checkRange x = .ok () := by
  rw [revalidate, normalize_double htype] at h
  exact exists_double_of_normalizeDouble h

end Descriptor

end Reflex
