import Reflex.Proofs.Json
import Reflex.Proofs.Number.Shortest

/-!
# Reading Doubles

The reader of documents rounds twice, and a product may leave the range. It does not for the digits
that are written for a finite double: they denote no more than the greatest number that is rounded
to the double, and unless the double is one of the two greatest ones, two more roundings do not lift
this number beyond the range.

## Main definitions

- `Reflex.Json.Numeral.magnitude`: what the digits of a number denote.
- `Reflex.Json.Number.reach`: the numbers up to which the reader stays within the range.

## Main statements

- `Reflex.Json.Number.exists_ofParts?`, `Reflex.Json.Numeral.exists_value?`: numbers within reach
  are read as finite doubles.
- `Reflex.Double.exists_readNumber?`, `Reflex.Double.isReadable_of_isFinite`: so is the text of every
  finite double.
-/

namespace Reflex

namespace Json

open Double (ceiling)

namespace Number

/-! ## Powers of ten -/

theorem cast_lt_ceiling {n : ℕ} (hn : n < (2 ^ 54 - 1) * 2 ^ 970) : (n : ℚ) < ceiling := by
  have hsame : (((2 ^ 54 - 1) * 2 ^ 970 : ℕ) : ℚ) = ceiling := by
    rw [Nat.cast_mul, Nat.cast_pow, Nat.cast_ofNat, ceiling, pow_succ' _ 970, ← mul_assoc]
    norm_num
  rw [← hsame]
  exact_mod_cast hn

/-- The powers of the table are finite, and rounded with a small error. -/
theorem roundedPower_spec {n : ℕ} (hn : n ≤ 308) : (roundedPower n).isFinite = true ∧
    |(roundedPower n).magnitude - 10 ^ n| ≤ 10 ^ n / 2 ^ 53 := by
  have hpower : roundedPower n = .ofRatio false (powerOfTen n) 1 := by
    have hsize : ((Nat.toDigits 10 1).length + (n : ℤ)) = n + 1 := add_comm ..
    rw [roundedPower, Double.ofDecimal]
    simp only [hsize]
    rw [if_neg (by omega), if_neg (by omega), if_pos (by omega), Nat.one_mul, Int.toNat_natCast]
  have hlt : powerOfTen n < (2 ^ 54 - 1) * 2 ^ 970 :=
    (powerOfTen_mono hn).trans_lt (by decide +kernel)
  have hrange : ((powerOfTen n : ℕ) : ℚ) / (1 : ℕ) < ceiling := by
    rw [Nat.cast_one, div_one]
    exact cast_lt_ceiling hlt
  have hone : 1 ≤ powerOfTen n := Nat.pow_pos (by decide)
  have herror := Double.magnitude_ofRatio false Nat.one_pos hone hrange
  rw [Nat.cast_one, div_one, cast_powerOfTen] at herror
  rw [hpower]
  exact ⟨Double.isFinite_ofRatio false Nat.one_pos hrange, herror⟩

/-- So are the significands. -/
theorem ofInt_spec {n : ℕ} (hn : n ≤ maxSignificand) : (Double.ofInt n).isFinite = true ∧
    |(Double.ofInt n).magnitude - n| ≤ n / 2 ^ 53 := by
  have hint : Double.ofInt n = .ofRatio false n 1 := by
    rw [Double.ofInt, decide_eq_false (by omega), Int.natAbs_natCast]
  have hlt : n < (2 ^ 54 - 1) * 2 ^ 970 := hn.trans_lt (by decide +kernel)
  have hrange : (n : ℚ) / (1 : ℕ) < ceiling := by
    rw [Nat.cast_one, div_one]
    exact cast_lt_ceiling hlt
  rw [hint]
  refine ⟨Double.isFinite_ofRatio false Nat.one_pos hrange, ?_⟩
  rcases n.eq_zero_or_pos with rfl | hpos
  · rw [Double.ofRatio_zero]
    simp [Double.zero, Double.magnitude]
  · have herror := Double.magnitude_ofRatio false Nat.one_pos hpos hrange
    rwa [Nat.cast_one, div_one] at herror

/-! ## Significands and powers -/

/-- A quotient by a power of ten is finite. -/
theorem isFinite_quotient (s : Bool) {x : Double} (hx : x.isFinite = true) {n : ℕ} (hpos : 0 < n)
    (hn : n ≤ 308) : (Double.divMagnitude s x (roundedPower n)).isFinite = true := by
  obtain ⟨hfinite, herror⟩ := roundedPower_spec hn
  have hten : (10 : ℚ) ≤ 10 ^ n := le_self_pow₀ (by norm_num) hpos.ne'
  have hone : 1 ≤ (roundedPower n).magnitude := by
    have hlow := neg_le_of_abs_le herror
    have hsmall : (10 : ℚ) ^ n / 2 ^ 53 ≤ 10 ^ n / 2 := by gcongr; norm_num
    linarith
  refine Double.isFinite_divMagnitude s hx hfinite (by linarith) ?_
  exact (div_le_self x.magnitude_nonneg hone).trans_lt x.magnitude_lt_ceiling

/-- Below the point nothing leaves the range. -/
theorem exists_scale?_of_neg (s : Bool) (steps : ℕ) {x : Double} (hx : x.isFinite = true)
    {exponent : ℤ} (hneg : exponent < 0) :
    ∃ y, scale? s steps x exponent = some y ∧ y.isFinite = true := by
  induction steps generalizing x exponent with
  | zero => exact ⟨_, rfl, rfl⟩
  | succ steps ih =>
    rw [scale?]
    by_cases htable : exponent.natAbs ≤ 308
    · rw [if_pos htable, if_neg (by omega)]
      exact ⟨_, rfl, isFinite_quotient s hx (by omega) htable⟩
    · rw [if_neg htable]
      split
      · exact ⟨_, rfl, rfl⟩
      · rw [if_neg (by omega)]
        exact ih (isFinite_quotient false hx (by decide) (by decide)) (by omega)

/-- Two steps below the end of the range: two more roundings do not lead beyond it. -/
def reach : ℚ := (2 ^ 53 - 5 / 2) * 2 ^ 971

theorem reach_pos : 0 < reach := by
  unfold reach
  norm_num

theorem reach_le_ceiling : reach ≤ ceiling :=
  mul_le_mul_of_nonneg_right (by norm_num) (by positivity)

/-- The table reaches to the end of the range. -/
theorem ceiling_lt_pow {n : ℕ} (hn : 308 < n) : ceiling < 10 ^ n := by
  have hpowers : powerOfTwo 1024 ≤ powerOfTen n :=
    (by decide +kernel : powerOfTwo 1024 ≤ powerOfTen 309).trans (powerOfTen_mono hn)
  calc ceiling < 2 ^ (1024 : ℤ) := Double.ceiling_lt
    _ = 2 ^ 1024 := zpow_natCast 2 1024
    _ ≤ 10 ^ n := by
        rw [← cast_powerOfTwo, ← cast_powerOfTen]
        exact Nat.cast_le.2 hpowers

/-- A product within reach is finite. -/
theorem isFinite_product (s : Bool) {significand n : ℕ} (hfits : significand ≤ maxSignificand)
    (hn : n ≤ 308) (hreach : (significand * 10 ^ n : ℚ) ≤ reach) :
    (Double.mulMagnitude s (.ofInt significand) (roundedPower n)).isFinite = true := by
  obtain ⟨hfinite, herror⟩ := ofInt_spec hfits
  obtain ⟨hpowerFinite, hpowerError⟩ := roundedPower_spec hn
  refine Double.isFinite_mulMagnitude s hfinite hpowerFinite ?_
  have hbound : (Double.ofInt significand).magnitude ≤ significand * (1 + 1 / 2 ^ 53) := by
    have hhigh := le_of_abs_le herror
    linarith
  have hpowerBound : (roundedPower n).magnitude ≤ 10 ^ n * (1 + 1 / 2 ^ 53) := by
    have hhigh := le_of_abs_le hpowerError
    linarith
  calc (Double.ofInt significand).magnitude * (roundedPower n).magnitude
      ≤ significand * (1 + 1 / 2 ^ 53) * (10 ^ n * (1 + 1 / 2 ^ 53)) :=
        mul_le_mul hbound hpowerBound (Double.magnitude_nonneg _) (by positivity)
    _ = significand * 10 ^ n * (1 + 1 / 2 ^ 53) ^ 2 := by ring
    _ ≤ reach * (1 + 1 / 2 ^ 53) ^ 2 := by gcongr
    _ = (2 ^ 53 - 5 / 2) * (1 + 1 / 2 ^ 53) ^ 2 * 2 ^ 971 := mul_right_comm ..
    _ < ceiling := mul_lt_mul_of_pos_right (by norm_num) (by positivity)

/-- Numbers within reach are read as finite doubles. -/
theorem exists_ofParts? (s : Bool) {significand : ℕ} {exponent : ℤ}
    (hfits : significand ≤ maxSignificand)
    (hreach : (significand * 10 ^ exponent : ℚ) ≤ reach) :
    ∃ x, ofParts? s significand exponent = some x ∧ x.isFinite = true := by
  rcases lt_or_ge exponent 0 with hneg | hpos
  · exact exists_scale?_of_neg s 4 (ofInt_spec hfits).1 hneg
  · obtain ⟨n, rfl⟩ := Int.eq_ofNat_of_zero_le hpos
    rw [zpow_natCast] at hreach
    rw [ofParts?, scale?]
    by_cases htable : n ≤ 308
    · have hproduct := isFinite_product s hfits htable hreach
      simp only [Int.natAbs_natCast, if_pos htable, if_pos hpos, Int.toNat_natCast,
        if_pos hproduct]
      exact ⟨_, rfl, hproduct⟩
    · -- only zero is within reach then
      obtain rfl : significand = 0 := by
        by_contra hne
        have hone : (1 : ℚ) ≤ significand := by
          exact_mod_cast Nat.one_le_iff_ne_zero.2 hne
        have hbeyond : (1 * 10 ^ n : ℚ) ≤ ceiling :=
          le_trans (by gcongr) (hreach.trans reach_le_ceiling)
        rw [one_mul] at hbeyond
        exact absurd hbeyond (not_le.2 (ceiling_lt_pow (not_le.1 htable)))
      rw [if_neg (by simpa using htable), if_pos (by decide)]
      exact ⟨_, rfl, rfl⟩

/-! ## Digits -/

/-- What stands in front of digits is shifted by them. -/
theorem mul_pow_le_shifted (significand : ℕ) (ds : List Char) :
    significand * 10 ^ ds.length ≤ shifted significand ds := by
  induction ds generalizing significand with
  | nil => exact (mul_one significand).le
  | cons c ds ih =>
    calc significand * 10 ^ (c :: ds).length
      _ = significand * 10 * 10 ^ ds.length := by rw [List.length_cons, pow_succ', mul_assoc]
      _ ≤ (significand * 10 + (Decimal.digit? c).getD 0) * 10 ^ ds.length :=
        Nat.mul_le_mul_right _ (Nat.le_add_right _ _)
      _ ≤ shifted significand (c :: ds) := ih _

/-- The digits that are taken denote no more than all digits, in their places. -/
theorem accumulate_spec (ds : List Char) {significand : ℕ} (hfits : significand ≤ maxSignificand) :
    (accumulate significand ds).1 ≤ maxSignificand ∧ (accumulate significand ds).2 ≤ ds.length ∧
      (accumulate significand ds).1 * 10 ^ (ds.length - (accumulate significand ds).2) ≤
        shifted significand ds := by
  induction ds generalizing significand with
  | nil => exact ⟨hfits, le_rfl, (mul_one _).le⟩
  | cons c ds ih =>
    rw [accumulate]
    split
    next hfull =>
      refine ⟨hfits, Nat.zero_le _, ?_⟩
      exact mul_pow_le_shifted significand (c :: ds)
    next hnext =>
      obtain ⟨hmost, htaken, hvalue⟩ := ih (not_lt.1 hnext)
      refine ⟨hmost, Nat.succ_le_succ htaken, ?_⟩
      rw [List.length_cons, Nat.add_sub_add_right]
      exact hvalue

end Number

namespace Numeral

open Number

/-- What the digits of a number denote. -/
def magnitude (n : Numeral) : ℚ :=
  Decimal.ofDigits (n.whole ++ n.fraction) * 10 ^ (n.exponent.getD 0 - n.fraction.length : ℤ)

/-- A number with a fraction or a power of ten is read as a double, if its whole part fits. -/
theorem value?_eq {n : Numeral} (hfits : shifted 0 n.whole ≤ maxSignificand)
    (hdouble : n.fraction ≠ [] ∨ n.exponent ≠ none) :
    n.value? =
      let r := accumulate (shifted 0 n.whole) n.fraction
      if 2147483648 ≤ (n.exponent.getD 0).natAbs then
        if r.1 ≠ 0 ∧ 0 < n.exponent.getD 0 then none else some (.double (.zero n.negative))
      else (ofParts? n.negative r.1 (n.exponent.getD 0 - r.2)).map .double := by
  obtain ⟨negative, whole, fraction, exponent⟩ := n
  have hpart : (fraction.isEmpty && exponent.isNone) = false := by
    rw [Bool.and_eq_false_iff, List.isEmpty_eq_false_iff, Option.isNone_eq_false_iff,
      Option.isSome_iff_ne_none]
    exact hdouble
  simp only [value?, accumulate_eq 0 whole hfits, Nat.sub_self, hpart, Bool.false_and,
    Bool.false_eq_true, if_false]
  cases exponent with
  | none => simp
  | some e => simp [neg_add_eq_sub]

/-- Numbers within reach are read as finite doubles. -/
theorem exists_value? {n : Numeral} (hfits : shifted 0 n.whole ≤ maxSignificand)
    (hdouble : n.fraction ≠ [] ∨ n.exponent ≠ none) (hexponent : n.exponent.getD 0 < 2147483648)
    (hreach : n.magnitude ≤ reach) :
    ∃ x, n.value? = some (.double x) ∧ x.isFinite = true := by
  rw [value?_eq hfits hdouble]
  obtain ⟨hmost, htaken, hvalue⟩ := accumulate_spec n.fraction hfits
  obtain ⟨r, hr⟩ : ∃ r, accumulate (shifted 0 n.whole) n.fraction = r := ⟨_, rfl⟩
  obtain ⟨e, he⟩ : ∃ e, n.exponent.getD 0 = e := ⟨_, rfl⟩
  rw [hr] at hmost htaken hvalue
  rw [he] at hexponent
  simp only [hr, he]
  split
  next hfar =>
    rw [if_neg (by omega)]
    exact ⟨_, rfl, rfl⟩
  next =>
    have hall : shifted 0 (n.whole ++ n.fraction) = shifted (shifted 0 n.whole) n.fraction :=
      List.foldl_append
    have hparts : (r.1 * 10 ^ (e - r.2) : ℚ) ≤ reach := by
      refine le_trans ?_ hreach
      rw [magnitude, he]
      calc (r.1 * 10 ^ (e - r.2) : ℚ)
          = (r.1 * 10 ^ (n.fraction.length - r.2) : ℕ) * 10 ^ (e - n.fraction.length) := by
            push_cast
            rw [mul_assoc, ← zpow_natCast, ← zpow_add₀ (by norm_num)]
            congr 2
            omega
        _ ≤ Decimal.ofDigits (n.whole ++ n.fraction) * 10 ^ (e - n.fraction.length) := by
            gcongr
            exact hvalue.trans hall.ge
    obtain ⟨x, hx, hfinite⟩ := exists_ofParts? n.negative hmost hparts
    rw [hx]
    exact ⟨x, rfl, hfinite⟩

end Numeral

/-! ## The texts of doubles -/

section Text

open Decimal (digits ofDigits Significant)
open Number (shifted maxSignificand reach)

variable {ds whole fraction rest : List Char} {lead : ℤ} {exponent : Option ℤ} {value : ℚ}

theorem ofDigits_lt (ds : List Char) : ofDigits ds < 10 ^ ds.length := by
  have hshifted : ∀ significand, shifted significand ds < (significand + 1) * 10 ^ ds.length := by
    induction ds with
    | nil => simp [shifted]
    | cons c ds ih =>
      intro significand
      have hdigit : (Decimal.digit? c).getD 0 ≤ 9 := by
        unfold Decimal.digit?
        split
        next hc =>
          have hnine : c.toNat ≤ '9'.toNat := hc.2
          show c.toNat - '0'.toNat ≤ 9
          exact Nat.sub_le_sub_right hnine '0'.toNat
        next => exact Nat.zero_le 9
      refine (ih (significand * 10 + (Decimal.digit? c).getD 0)).trans_le ?_
      rw [List.length_cons, pow_succ', ← mul_assoc]
      exact Nat.mul_le_mul_right _ (by omega)
  have hall := hshifted 0
  rwa [zero_add, one_mul] at hall

/-- The digits of a positive number denote one that has as many digits. -/
theorem pow_le_ofDigits (hds : Significant ds) : 10 ^ (ds.length - 1) ≤ ofDigits ds := by
  obtain ⟨hall, c, rest, rfl, hzero⟩ := hds
  have hdigit : 1 ≤ (Decimal.digit? c).getD 0 := by
    have hc := hall c List.mem_cons_self
    unfold Decimal.isDigit Decimal.digit? at hc
    unfold Decimal.digit?
    split at hc
    next hrange =>
      rw [if_pos hrange, Option.getD_some]
      have hlow : '0'.toNat ≤ c.toNat := hrange.1
      have hne : c.toNat ≠ '0'.toNat := fun h => hzero (Char.toNat_inj.1 h)
      omega
    next => cases hc
  calc 10 ^ ((c :: rest).length - 1) = 1 * 10 ^ rest.length := (one_mul _).symm
    _ ≤ (0 * 10 + (Decimal.digit? c).getD 0) * 10 ^ rest.length :=
      Nat.mul_le_mul_right _ (by omega)
    _ ≤ ofDigits (c :: rest) := Number.mul_pow_le_shifted _ rest

/-- Whether a text denotes a number and is read as a double, whatever sign stands in front. -/
def Denotes (cs : List Char) (value : ℚ) : Prop :=
  ∃ n : Numeral, (∀ negative, spanNumeral? ((if negative then ['-'] else []) ++ cs) =
      some ({ n with negative }, [])) ∧
    shifted 0 n.whole ≤ maxSignificand ∧ (n.fraction ≠ [] ∨ n.exponent ≠ none) ∧
      n.exponent.getD 0 < 2147483648 ∧ n.magnitude = value

theorem Denotes.exists_readNumber? {cs : List Char} (h : Denotes cs value) (hvalue : value ≤ reach)
    (negative : Bool) : ∃ x, x.isFinite = true ∧
      readNumber? ((if negative then ['-'] else []) ++ cs) = some (.double x, []) := by
  obtain ⟨n, hparts, hfits, hdouble, hexponent, rfl⟩ := h
  obtain ⟨x, hx, hfinite⟩ :=
    Numeral.exists_value? (n := { n with negative }) hfits hdouble hexponent hvalue
  refine ⟨x, hfinite, ?_⟩
  rw [readNumber?, hparts negative]
  simp [hx]

theorem denotes_parts (whole fraction rest : List Char) (hne : whole ≠ [])
    (hwhole : ∀ c ∈ whole, Decimal.isDigit c = true)
    (hzero : whole.head? = some '0' → whole.length = 1) (hlength : whole.length ≤ 19)
    (hfraction : ∀ c ∈ fraction, Decimal.isDigit c = true)
    (hrest : ∀ c ∈ rest.head?, Decimal.isDigit c = false ∧ c ≠ '.')
    (hexponent : spanExponent? rest = some (exponent, []))
    (hdouble : fraction ≠ [] ∨ exponent ≠ none) (hsmall : exponent.getD 0 < 2147483648) :
    Denotes (whole ++ (pointed fraction ++ rest))
      (ofDigits (whole ++ fraction) * 10 ^ (exponent.getD 0 - fraction.length)) := by
  refine ⟨{ negative := false, whole, fraction, exponent },
    fun negative => spanNumeral?_parts hrest negative hne hwhole hzero hfraction hexponent,
    ?_, hdouble, hsmall, rfl⟩
  have hmost : 10 ^ whole.length ≤ 10 ^ 19 := Nat.pow_le_pow_right (by decide) hlength
  have hlast : 10 ^ 19 ≤ maxSignificand + 1 := by decide
  exact Nat.lt_succ_iff.1 ((ofDigits_lt whole).trans_le (hmost.trans hlast))

/-- Two lists of digits around a point denote what the digits denote without it, in their places. -/
theorem denotes_pointed (whole fraction : List Char) (hne : whole ≠ [])
    (hwhole : ∀ c ∈ whole, Decimal.isDigit c = true)
    (hzero : whole.head? = some '0' → whole.length = 1) (hlength : whole.length ≤ 19)
    (hfraction : ∀ c ∈ fraction, Decimal.isDigit c = true) (hpoint : fraction ≠ []) :
    Denotes (whole ++ '.' :: fraction)
      (ofDigits (whole ++ fraction) * 10 ^ (-fraction.length : ℤ)) := by
  have hparts := denotes_parts whole fraction [] hne hwhole hzero hlength hfraction (by simp) rfl
    (.inl hpoint) (by decide)
  rwa [pointed, if_neg hpoint, List.append_nil, Option.getD_none, zero_sub] at hparts

theorem isDigit_of_mem_zeros (k : ℕ) : ∀ c ∈ List.replicate k '0', Decimal.isDigit c = true := by
  intro c hc
  obtain rfl := List.eq_of_mem_replicate hc
  rfl

theorem ofDigits_zeros_append (k : ℕ) (ds : List Char) :
    ofDigits (List.replicate k '0' ++ ds) = ofDigits ds := by
  induction k with
  | zero => rfl
  | succ k ih => exact ih

/-- Digits that are written out around the point denote themselves, in their places. -/
theorem denotes_positionalText (hds : Significant ds) (hlead : lead ≤ 15) :
    Denotes (Decimal.positionalText true ds lead)
      (ofDigits ds * 10 ^ (lead + 1 - ds.length : ℤ)) := by
  obtain ⟨first, tail, hfirst, hzero⟩ := hds.head
  have hne : ds ≠ [] := hfirst ▸ List.cons_ne_nil first tail
  have hhead : ∀ rest, (ds ++ rest).head? ≠ some '0' := by
    intro rest
    rw [hfirst]
    exact fun h => hzero (Option.some.inj h)
  unfold Decimal.positionalText
  split
  next hneg =>
    -- zeros stand in front of the digits
    obtain ⟨zeros, hfill⟩ : ∃ zeros, List.replicate (-lead - 1).toNat '0' = zeros := ⟨_, rfl⟩
    have hdigits : ∀ c ∈ zeros ++ ds, Decimal.isDigit c = true :=
      List.forall_mem_append.2 ⟨hfill ▸ isDigit_of_mem_zeros _, hds.isDigit⟩
    have hdenotes := denotes_pointed ['0'] (zeros ++ ds) (by decide) (isDigit_of_mem_zeros 1)
      (fun _ => rfl) (by decide) hdigits (List.append_ne_nil_of_right_ne_nil _ hne)
    have hvalue : ofDigits (['0'] ++ (zeros ++ ds)) = ofDigits ds :=
      hfill ▸ ofDigits_zeros_append ((-lead - 1).toNat + 1) ds
    have hplaces : -((zeros ++ ds).length : ℤ) = lead + 1 - ds.length := by
      rw [← hfill, List.length_append, List.length_replicate]
      omega
    rw [hfill]
    rwa [hvalue, hplaces] at hdenotes
  next hpos =>
    simp only [if_true]
    split
    next hlength =>
      -- zeros stand behind the digits
      obtain ⟨k, hk⟩ : ∃ k, lead.toNat + 1 - ds.length = k := ⟨_, rfl⟩
      have hdigits : ∀ c ∈ ds ++ List.replicate k '0', Decimal.isDigit c = true :=
        List.forall_mem_append.2 ⟨hds.isDigit, isDigit_of_mem_zeros k⟩
      have hshort : (ds ++ List.replicate k '0').length ≤ 19 := by
        rw [List.length_append, List.length_replicate]
        omega
      have hdenotes := denotes_pointed (ds ++ List.replicate k '0') ['0']
        (List.append_ne_nil_of_left_ne_nil hne _) hdigits (fun h => absurd h (hhead _)) hshort
        (isDigit_of_mem_zeros 1) (by decide)
      have hvalue : ofDigits (ds ++ List.replicate k '0' ++ ['0']) =
          ofDigits ds * 10 ^ (k + 1) := by
        rw [List.append_assoc, ← List.replicate_succ', Decimal.ofDigits_append_zeros]
      have hsame : (ofDigits ds * 10 ^ (lead + 1 - ds.length : ℤ) : ℚ) =
          (ofDigits ds * 10 ^ (k + 1) : ℕ) * 10 ^ (-1 : ℤ) := by
        push_cast
        rw [mul_assoc, ← zpow_natCast, ← zpow_add₀ (by norm_num)]
        congr 2
        omega
      rw [hk, hsame, ← hvalue]
      exact hdenotes
    next hlength =>
      -- the point stands between the digits
      obtain ⟨k, hk⟩ : ∃ k, lead.toNat + 1 = k := ⟨_, rfl⟩
      have hsplit : ds.take k ++ ds.drop k = ds := List.take_append_drop k ds
      have htake : (ds.take k).length = k := List.length_take_of_le (by omega)
      have htakeHead : (ds.take k).head? ≠ some '0' := by
        rw [hfirst, ← hk]
        exact fun h => hzero (Option.some.inj h)
      have hdenotes := denotes_pointed (ds.take k) (ds.drop k)
        (List.ne_nil_of_length_pos (by omega))
        (fun c hc => hds.isDigit c (List.mem_of_mem_take hc))
        (fun h => absurd h htakeHead) (by omega)
        (fun c hc => hds.isDigit c (List.mem_of_mem_drop hc))
        (List.ne_nil_of_length_pos (by rw [List.length_drop]; omega))
      have hplaces : -((ds.drop k).length : ℤ) = lead + 1 - ds.length := by
        rw [List.length_drop]
        omega
      rw [hk]
      rwa [hsplit, hplaces] at hdenotes

/-- So do digits with a power of ten. -/
theorem denotes_exponentText (hds : Significant ds) (hlead : lead < 2147483648) :
    Denotes (Decimal.exponentText ds lead) (ofDigits ds * 10 ^ (lead + 1 - ds.length : ℤ)) := by
  obtain ⟨hall, c, fraction, rfl, hzero⟩ := hds
  rw [List.forall_mem_cons] at hall
  have hexponent : spanExponent? ('e' :: (if lead < 0 then '-' else '+') :: digits lead.natAbs) =
      some (some lead, []) := by
    have hspan : Decimal.spanDigits (digits lead.natAbs ++ []) = (digits lead.natAbs, []) :=
      spanDigits_eq (fun c => Decimal.isDigit_of_mem_digits) (by simp)
    have hne : (digits lead.natAbs).isEmpty = false :=
      List.isEmpty_eq_false_iff.2 Nat.toDigits_ne_nil
    rw [List.append_nil] at hspan
    by_cases hneg : lead < 0
    · simp only [if_pos hneg, spanExponent?, Decimal.spanSign, hspan, hne, Bool.false_eq_true,
        if_false, Decimal.ofDigits_digits, Double.signed, if_true]
      rw [Int.ofNat_natAbs_of_nonpos hneg.le, neg_neg]
    · simp only [if_neg hneg, spanExponent?, Decimal.spanSign, hspan, hne, Bool.false_eq_true,
        if_false, Decimal.ofDigits_digits, Double.signed]
      rw [Int.natAbs_of_nonneg (not_lt.1 hneg)]
  have hdenotes := denotes_parts [c] fraction _ (by simp) (List.forall_mem_singleton.2 hall.1)
    (fun _ => rfl) (by simp) hall.2 (by simp [Decimal.isDigit, Decimal.digit?]) hexponent
    (.inr (by simp)) hlead
  have htext : Decimal.exponentText (c :: fraction) lead = [c] ++ (pointed fraction ++
      'e' :: (if lead < 0 then '-' else '+') :: digits lead.natAbs) := by
    cases fraction <;> rfl
  have hplaces : (some lead).getD 0 - (fraction.length : ℤ) =
      lead + 1 - (c :: fraction).length := by
    rw [Option.getD_some, List.length_cons]
    omega
  rw [htext]
  rwa [hplaces] at hdenotes

theorem denotes_zero : Denotes ['0', '.', '0'] 0 := by
  have hdenotes := denotes_pointed ['0'] ['0'] (by decide) (isDigit_of_mem_zeros 1)
    (fun _ => rfl) (by decide) (isDigit_of_mem_zeros 1) (by decide)
  have hvalue : ofDigits (['0'] ++ ['0']) = 0 := rfl
  rwa [hvalue, Nat.cast_zero, zero_mul] at hdenotes

end Text

end Json

namespace Double

open Json (Denotes readNumber?)
open Json.Number (reach)

/-- What is rounded to a finite double is not beyond the end of the range. -/
theorem Canonical.le_ceiling {m : ℕ} {e : ℤ} (h : Canonical m e) :
    ((m + 1 / 2) * 2 ^ e : ℚ) ≤ ceiling := by
  obtain ⟨hm, -, he, -⟩ := h
  have hm : (m : ℚ) ≤ 2 ^ 53 - 1 := by
    rw [le_sub_iff_add_le]
    exact_mod_cast hm
  calc ((m + 1 / 2) * 2 ^ e : ℚ) ≤ (2 ^ 53 - 1 + 1 / 2) * 2 ^ (971 : ℤ) := by
        gcongr
        norm_num
    _ = ceiling := by
        rw [ceiling]
        norm_num

/-- Unless a double is one of the two greatest ones, what is rounded to it is within reach. -/
theorem le_reach {m : ℕ} {e : ℤ} (h : Canonical m e)
    (hbelow : e < 971 ∨ m < 0x1ffffffffffffe) : ((m + 1 / 2) * 2 ^ e : ℚ) ≤ reach := by
  obtain ⟨hm, -, he, -⟩ := h
  rcases hbelow with hbelow | hbelow
  · have hm : (m : ℚ) ≤ 2 ^ 53 - 1 := by
      rw [le_sub_iff_add_le]
      exact_mod_cast hm
    calc ((m + 1 / 2) * 2 ^ e : ℚ) ≤ (2 ^ 53 - 1 + 1 / 2) * 2 ^ (970 : ℤ) := by
          gcongr
          · norm_num
          · omega
      _ ≤ (2 ^ 53 - 5 / 2) * 2 * 2 ^ (970 : ℤ) := by
          gcongr
          norm_num
      _ = reach := by
          rw [mul_assoc, reach, ← zpow_one_add₀ two_ne_zero]
          rfl
  · have hm : (m : ℚ) ≤ 2 ^ 53 - 3 := by
      rw [le_sub_iff_add_le]
      exact_mod_cast Nat.add_le_add_right (Nat.lt_succ_iff.1 hbelow) 3
    calc ((m + 1 / 2) * 2 ^ e : ℚ) ≤ (2 ^ 53 - 3 + 1 / 2) * 2 ^ (971 : ℤ) := by
          gcongr
          norm_num
      _ = reach := by
          rw [reach]
          norm_num

/-- The text of a positive double denotes no more than the greatest number that is rounded to the
double. -/
theorem exists_denotes {m : ℕ} {e : ℤ} (hm : 0 < m) (h : Canonical m e) (negative : Bool) :
    ∃ cs value, Denotes cs value ∧ value ≤ (m + 1 / 2) * 2 ^ e ∧
      (Decimal.Layout.scientific.text (.finite negative m e h)).toList =
        (if negative then ['-'] else []) ++ cs := by
  have hdigits := Decimal.significant_shortest false hm h
  have hvalue := Decimal.shortest_le false hm h
  obtain ⟨⟨ds, lead⟩, hshortest⟩ : ∃ r, Decimal.shortest false m e = r := ⟨_, rfl⟩
  rw [hshortest] at hdigits hvalue
  have hlead : lead ≤ 308 := by
    by_contra hfar
    obtain ⟨n, rfl⟩ := Int.eq_ofNat_of_zero_le (by omega : 0 ≤ lead)
    obtain ⟨c, rest, rfl, -⟩ := hdigits.head
    have hsize : (10 ^ rest.length : ℚ) ≤ Decimal.ofDigits (c :: rest) := by
      exact_mod_cast Json.pow_le_ofDigits hdigits
    have hbeyond : (10 ^ n : ℚ) ≤ ceiling := by
      calc (10 ^ n : ℚ) = 10 ^ rest.length * 10 ^ ((n : ℤ) + 1 - (c :: rest).length) := by
            rw [← zpow_natCast, ← zpow_natCast, ← zpow_add₀ (by norm_num), List.length_cons]
            congr 1
            omega
        _ ≤ (m + 1 / 2) * 2 ^ e := le_trans (by gcongr) hvalue
        _ ≤ ceiling := h.le_ceiling
    exact absurd hbeyond (not_le.2 (Json.Number.ceiling_lt_pow (by omega)))
  have htext : ∀ body, (String.ofList (if negative then '-' :: body else body)).toList =
      (if negative then ['-'] else []) ++ body := by
    intro body
    cases negative <;> simp
  by_cases hpositional : -5 ≤ lead ∧ lead ≤ 15
  · refine ⟨_, _, Json.denotes_positionalText hdigits hpositional.2, hvalue, ?_⟩
    rw [← htext]
    simp [Decimal.Layout.text, Decimal.Layout.scientific, hm.ne', hshortest, hpositional]
  · refine ⟨_, _, Json.denotes_exponentText hdigits (by omega), hvalue, ?_⟩
    rw [← htext]
    simp [Decimal.Layout.text, Decimal.Layout.scientific, hm.ne', hshortest, hpositional]

/-- The greatest finite double. -/
def greatest (negative : Bool) : Double :=
  .finite negative 0x1fffffffffffff 971 (by decide)

/-- The two greatest doubles are both read as the greatest one. -/
theorem readNumber?_greatest : ∀ negative,
    readNumber? (Decimal.Layout.scientific.text
        (.finite negative 0x1ffffffffffffe 971 (by decide))).toList =
      some (.double (greatest negative), []) ∧
    readNumber? (Decimal.Layout.scientific.text (greatest negative)).toList =
      some (.double (greatest negative), []) := by
  decide +kernel

/-- The text of a finite double is read as a finite double. -/
theorem exists_readNumber? {x : Double} (hx : x.isFinite = true) : ∃ y, y.isFinite = true ∧
    readNumber? (Decimal.Layout.scientific.text x).toList = some (.double y, []) := by
  cases x with
  | nan | infinite => cases hx
  | finite negative m e h =>
    rcases m.eq_zero_or_pos with rfl | hm
    · obtain ⟨y, hy, hread⟩ := Json.denotes_zero.exists_readNumber? Json.Number.reach_pos.le negative
      refine ⟨y, hy, ?_⟩
      rw [← hread]
      cases negative <;> simp [Decimal.Layout.text, Decimal.Layout.scientific]
    by_cases hbelow : e < 971 ∨ m < 0x1ffffffffffffe
    · obtain ⟨cs, value, hdenotes, hvalue, htext⟩ := exists_denotes hm h negative
      rw [htext]
      exact hdenotes.exists_readNumber? (hvalue.trans (le_reach h hbelow)) negative
    · obtain rfl : e = 971 := by
        obtain ⟨-, -, he, -⟩ := h
        omega
      obtain rfl | rfl : m = 0x1ffffffffffffe ∨ m = 0x1fffffffffffff := by
        obtain ⟨hm, -⟩ := h
        omega
      · exact ⟨greatest negative, rfl, (readNumber?_greatest negative).1⟩
      · exact ⟨greatest negative, rfl, (readNumber?_greatest negative).2⟩

theorem isReadable_of_isFinite {x : Double} (hx : x.isFinite = true) : x.IsReadable := by
  obtain ⟨y, -, hread⟩ := exists_readNumber? hx
  rw [IsReadable, settle_eq_of_read hread]
  exact hread

theorem isFinite_settle {x : Double} (hx : x.isFinite = true) : x.settle.isFinite = true := by
  obtain ⟨y, hy, hread⟩ := exists_readNumber? hx
  rw [settle_eq_of_read hread]
  exact hy

end Double

end Reflex
