import Reflex.Proofs.Number.Decimal
import Reflex.TimeOfDay

/-!
# Reading Back Times of Day

A time that was entered has no fraction, and it is read back from its text. A time that is recorded
keeps its fraction, and every time of day is read back from its record. A leap second is written as
second 60, which is how it is entered.

## Main definitions

- `TimeOfDay.clock`: the characters of a clock.

## Main statements

- `TimeOfDay.read?_secondText`: the text of a time made from a clock is read back.
- `TimeOfDay.exists_clock_of_read?`: entered times are made from a clock.
- `TimeOfDay.readExact?_fullText`: every time is read back from its record.
-/

namespace Reflex.TimeOfDay

open Text Text.Scan

variable {hour minute second nano : Nat} {t : TimeOfDay} {s : String}

/-- A time shows the parts that it was made from. -/
theorem shown_of_ofClock? (h : ofClock? hour minute second nano = some t) :
    t.hour = hour ∧ t.minute = minute ∧ t.shownSecond = second ∧
      hour < 24 ∧ minute < 60 ∧ second ≤ 60 := by
  unfold ofClock? at h
  split at h
  next hlt =>
    obtain rfl := Option.some.inj h
    simp only [TimeOfDay.hour, TimeOfDay.minute, shownSecond]
    omega
  next =>
    split at h
    next hleap =>
      obtain rfl := Option.some.inj h
      simp only [TimeOfDay.hour, TimeOfDay.minute, shownSecond]
      omega
    next => cases h

/-- The characters of a clock that shows an hour, a minute and a second. -/
def clock (hour minute second : Nat) : List Char :=
  Decimal.padded 2 hour ++ ':' :: (Decimal.padded 2 minute ++ ':' :: Decimal.padded 2 second)

theorem secondText_eq (t : TimeOfDay) :
    t.secondText = String.ofList (clock t.hour t.minute t.shownSecond) := by
  rw [secondText, minuteText, ← String.ofList_append, clock, List.append_assoc, List.cons_append]

/-- A clock begins and ends with a digit. -/
theorem trim_clock (hour minute second : Nat) :
    trim (clock hour minute second) = clock hour minute second := by
  refine trim_eq_self (fun c hc => ?_) fun c hc => ?_
  · rw [clock, List.head?_append_of_ne_nil _ (Decimal.padded_ne_nil 2 hour)] at hc
    exact isBlankChar_of_isDigit (Decimal.isDigit_of_mem_padded (List.mem_of_head? hc))
  · rw [clock, List.append_cons, ← List.append_assoc, List.append_cons,
      List.getLast?_append_of_ne_nil _ (Decimal.padded_ne_nil 2 second)] at hc
    exact isBlankChar_of_isDigit (Decimal.isDigit_of_mem_padded (List.mem_of_getLast? hc))

/-- A clock that shows numbers of two digits is read as these numbers. -/
theorem read?_clock (hhour : hour < 100) (hminute : minute < 100) (hsecond : second < 100) :
    read? (String.ofList (clock hour minute second)) = ofClock? hour minute second 0 := by
  have hend : field? 2 (Decimal.padded 2 second) = some (second, []) := by
    simpa using field?_padded Nat.two_pos hsecond []
  rw [read?, String.toList_ofList, trim_clock, clock]
  simp [scanMinute?, field?_padded Nat.two_pos hhour, field?_padded Nat.two_pos hminute, hend,
    char?]

/-- The text of a time that was made from a clock is read back. -/
theorem read?_secondText (h : ofClock? hour minute second 0 = some t) :
    read? t.secondText = some t := by
  obtain ⟨rfl, rfl, rfl, hhour, hminute, hsecond⟩ := shown_of_ofClock? h
  rw [secondText_eq, read?_clock (by omega) (by omega) (by omega), h]

/-- An entered time is made from a clock. -/
theorem exists_clock_of_read? (h : read? s = some t) :
    ∃ hour minute second, ofClock? hour minute second 0 = some t := by
  obtain ⟨⟨hour, minute, rest⟩, -, h⟩ := Option.bind_eq_some_iff.1 h
  dsimp only at h
  split at h
  · exact ⟨hour, minute, 0, h⟩
  · obtain ⟨rest, -, h⟩ := Option.bind_eq_some_iff.1 h
    obtain ⟨⟨second, rest⟩, -, h⟩ := Option.bind_eq_some_iff.1 h
    dsimp only at h
    split at h
    · exact ⟨hour, minute, second, h⟩
    · cases h

/-! ## Recorded times -/

theorem ext {t u : TimeOfDay} (hsecond : t.second = u.second) (hnano : t.nano = u.nano) :
    t = u := by
  cases t
  cases u
  simp_all

/-- Every time is made from what its clock shows and the fraction. -/
theorem ofClock?_shown (t : TimeOfDay) :
    ofClock? t.hour t.minute t.shownSecond (t.nano % 1000000000) = some t := by
  have hsecond := t.second_lt
  have hnano := t.nano_lt
  have hhour : t.hour < 24 := by unfold hour; omega
  have hminute : t.minute < 60 := by unfold minute; omega
  have hday : t.hour * 3600 + t.minute * 60 + t.second % 60 = t.second := by
    unfold hour minute
    omega
  by_cases hleap : 1000000000 ≤ t.nano
  · have hlast := t.leap_last hleap
    have hshown : t.shownSecond = 60 := by unfold shownSecond; omega
    rw [ofClock?, dif_neg (by omega), dif_pos ⟨hhour, hminute, hshown, by omega⟩]
    exact congrArg some (ext (by rw [← hday, hlast]) (by dsimp only; omega))
  · have hshown : t.shownSecond = t.second % 60 := by unfold shownSecond; omega
    rw [ofClock?, dif_pos ⟨hhour, hminute, by omega, by omega⟩]
    exact congrArg some (ext (by dsimp only; rw [hshown, hday]) (by dsimp only; omega))

/-- A fraction below a second is read back. -/
theorem fraction?_fractionText (hnano : nano < 1000000000) :
    fraction? (fractionText nano).toList = some (nano, []) := by
  unfold fractionText
  split
  next hzero =>
    rw [hzero]
    rfl
  split
  next hmillis =>
    have hlt : nano / 1000000 < powerOfTen 3 := show nano / 1000000 < 1000 by omega
    have hback : nano / 1000000 * powerOfTen 6 = nano :=
      show nano / 1000000 * 1000000 = nano by omega
    rw [String.toList_ofList, fraction?_padded (by decide) (by decide) hlt, hback]
  split
  next hmicros =>
    have hlt : nano / 1000 < powerOfTen 6 := show nano / 1000 < 1000000 by omega
    have hback : nano / 1000 * powerOfTen 3 = nano := show nano / 1000 * 1000 = nano by omega
    rw [String.toList_ofList, fraction?_padded (by decide) (by decide) hlt, hback]
  next =>
    rw [String.toList_ofList, fraction?_padded (by decide) (by decide) hnano]
    exact congrArg (fun n => some (n, [])) (Nat.mul_one nano)

theorem shown_lt (t : TimeOfDay) : t.hour < 24 ∧ t.minute < 60 ∧ t.shownSecond ≤ 60 :=
  (shown_of_ofClock? t.ofClock?_shown).2.2.2

/-- Every time of day is read back from its record. -/
theorem readExact?_fullText (t : TimeOfDay) : readExact? t.fullText = some t := by
  obtain ⟨hhour, hminute, hsecond⟩ := t.shown_lt
  have hfraction := fraction?_fractionText (Nat.mod_lt t.nano (by decide : 0 < 1000000000))
  have hcolon (rest : List Char) : separator? ':' (':' :: rest) = some rest := rfl
  have hopen (rest : List Char) : atEnd (':' :: rest) = false := rfl
  have hsecond' : scanSecond? (':' :: (Decimal.padded 2 t.shownSecond ++
      (fractionText (t.nano % 1000000000)).toList)) =
        some (t.shownSecond, t.nano % 1000000000, []) := by
    simp [scanSecond?, hcolon, hfraction, trimStart,
      field?_padded Nat.two_pos (show t.shownSecond < 100 by omega)]
  have htext : t.fullText.toList = Decimal.padded 2 t.hour ++ ':' :: (Decimal.padded 2 t.minute ++
      ':' :: (Decimal.padded 2 t.shownSecond ++
        (fractionText (t.nano % 1000000000)).toList)) := by
    rw [fullText, secondText_eq, String.toList_append, String.toList_ofList, clock]
    simp only [List.append_assoc, List.cons_append]
  simp [readExact?, htext, field?_padded Nat.two_pos (show t.hour < 100 by omega),
    field?_padded Nat.two_pos (show t.minute < 100 by omega), hcolon, hopen, hsecond',
    ofClock?_shown]

end Reflex.TimeOfDay
