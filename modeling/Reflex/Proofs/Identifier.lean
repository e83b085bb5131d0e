import Reflex.Identifier
import Mathlib.Data.List.Basic
import Mathlib.Tactic.Ring

/-!
# Reading Back Identifiers

An identifier is read back from its grouped form, so different identifiers have different texts.

## Main statements

- `Hexadecimal.ofDigits?_padded`: padded digits denote the number that was written.
- `Identifier.read?_text`: the text of an identifier is read as the identifier.
-/

namespace Reflex

namespace Hexadecimal

variable {width n : Nat}

theorem digit?_digit (hn : n < 16) : digit? (digit n) = some n := by
  have hall : ∀ n : Fin 16, digit? (digit n) = some n.val := by decide
  exact hall ⟨n, hn⟩

@[simp] theorem length_padded (width n : Nat) : (padded width n).length = width := by
  induction width generalizing n with
  | zero => rfl
  | succ width ih => rw [padded, List.length_append, ih, List.length_singleton]

/-- Reading padded digits shifts what was read before and adds the number, up to the width. -/
theorem foldlM_padded (width n acc : Nat) :
    (padded width n).foldlM (fun acc c => (digit? c).map fun d => acc * 16 + d) acc =
      some (acc * 16 ^ width + n % 16 ^ width) := by
  induction width generalizing n with
  | zero => simp [padded, Nat.mod_one]
  | succ width ih =>
    have hsplit : n % 16 ^ (width + 1) = n % 16 + 16 * (n / 16 % 16 ^ width) := by
      rw [Nat.pow_succ', Nat.mod_mul]
    rw [padded, List.foldlM_append, ih, hsplit]
    simp only [Option.bind_eq_bind, Option.bind_some, List.foldlM_cons, List.foldlM_nil,
      digit?_digit (Nat.mod_lt n (by decide)), Option.map_some, Option.pure_def, Option.some.injEq]
    ring

/-- Padded digits denote the number that was written. -/
theorem ofDigits?_padded (hn : n < 16 ^ width) : ofDigits? (padded width n) = some n := by
  rw [ofDigits?, foldlM_padded, Nat.zero_mul, Nat.zero_add, Nat.mod_eq_of_lt hn]

end Hexadecimal

namespace Identifier

theorem ofDigits?_digits (i : Identifier) : ofDigits? i.digits = some i := by
  have hread : Hexadecimal.ofDigits? i.digits = some i.value :=
    Hexadecimal.ofDigits?_padded i.value_lt
  have hfits : i.digits.length = 32 ∧ i.value < 0x100000000000000000000000000000000 :=
    ⟨Hexadecimal.length_padded 32 i.value, i.value_lt⟩
  simp [ofDigits?, hread, hfits]

/-- Five groups with dashes in between are read as the digits without the dashes. -/
theorem readGrouped?_groups {a b c d e : List Char} (ha : a.length = 8) (hb : b.length = 4)
    (hc : c.length = 4) (hd : d.length = 4) (he : e.length = 12) :
    readGrouped? (a ++ '-' :: b ++ '-' :: c ++ '-' :: d ++ '-' :: e) =
      ofDigits? (a ++ b ++ c ++ d ++ e) := by
  simp [readGrouped?, dashPlaces, List.drop_append, List.getElem?_append,
    List.drop_eq_nil_of_le, ha, hb, hc, hd, he]

/-- The groups of the text, without the dashes, are the digits. -/
theorem groups_digits (i : Identifier) :
    i.digits.take 8 ++ (i.digits.drop 8).take 4 ++ (i.digits.drop 12).take 4 ++
      (i.digits.drop 16).take 4 ++ i.digits.drop 20 = i.digits := by
  have hjoin (start width : Nat) : (i.digits.drop start).take width ++
      i.digits.drop (start + width) = i.digits.drop start := by
    rw [← List.drop_drop, List.take_append_drop]
  rw [List.append_assoc, hjoin 16 4, List.append_assoc, hjoin 12 4, List.append_assoc, hjoin 8 4,
    List.take_append_drop]

/-- The text of an identifier is read as the identifier. -/
@[simp] theorem read?_text (i : Identifier) : read? i.text = some i := by
  have hlength : i.digits.length = 32 := Hexadecimal.length_padded 32 i.value
  have htext : i.text.toList.length = 36 := by simp [text, hlength]
  have hgrouped : readGrouped? i.text.toList = some i := by
    rw [text, String.toList_ofList, readGrouped?_groups, groups_digits, ofDigits?_digits] <;>
      simp [hlength]
  simp [read?, htext, hgrouped]

theorem text_injective : Function.Injective text := fun i j h =>
  Option.some.inj <| by rw [← read?_text i, ← read?_text j, h]

end Identifier

end Reflex
