/-!
# Texts in the Order of Their Bytes

Texts are compared by code points, character by character. The bytes of their UTF-8 form have the
same order, because the first byte of a character grows with the number of bytes that follow, and
bytes of the same place with the character.

## Main statements

- `Reflex.Text.utf8Encode_lt`: the bytes of a smaller character, whatever follows.
- `Reflex.Text.utf8_lt_utf8`: the bytes of a smaller text.
-/

namespace Reflex.Text

open String (utf8EncodeChar)

/-- The bytes of the UTF-8 form of a text. -/
def utf8 (s : String) : List UInt8 :=
  s.toUTF8.data.toList

/-- A character is encoded by one to four bytes. -/
theorem utf8EncodeChar_cases (c : Char) :
    (c.toNat < 0x80 ∧ utf8EncodeChar c = [.ofNat c.toNat]) ∨
    (0x80 ≤ c.toNat ∧ c.toNat < 0x800 ∧ utf8EncodeChar c =
      [.ofNat (0xc0 + c.toNat / 0x40), .ofNat (0x80 + c.toNat % 0x40)]) ∨
    (0x800 ≤ c.toNat ∧ c.toNat < 0x10000 ∧ utf8EncodeChar c =
      [.ofNat (0xe0 + c.toNat / 0x1000), .ofNat (0x80 + c.toNat / 0x40 % 0x40),
        .ofNat (0x80 + c.toNat % 0x40)]) ∨
    (0x10000 ≤ c.toNat ∧ c.toNat < 0x110000 ∧ utf8EncodeChar c =
      [.ofNat (0xf0 + c.toNat / 0x40000), .ofNat (0x80 + c.toNat / 0x1000 % 0x40),
        .ofNat (0x80 + c.toNat / 0x40 % 0x40), .ofNat (0x80 + c.toNat % 0x40)]) := by
  have hvalid : c.toNat < 0x110000 := by
    rcases c.valid with hlow | hhigh
    · exact Nat.lt_trans hlow (by decide)
    · exact hhigh.2
  have hval : c.val.toNat = c.toNat := rfl
  -- the first byte is computed with a remainder that does nothing in its range
  have hfirst (a b : Nat) (h : a < b) : a % b = a := Nat.mod_eq_of_lt h
  simp only [utf8EncodeChar, hval]
  split
  next => exact .inl ⟨by omega, rfl⟩
  next =>
    split
    next =>
      refine .inr (.inl ⟨by omega, by omega, ?_⟩)
      simp only [hfirst (c.toNat / 64) 32 (by omega), Nat.add_comm]
    next =>
      split
      next =>
        refine .inr (.inr (.inl ⟨by omega, by omega, ?_⟩))
        simp only [hfirst (c.toNat / 4096) 16 (by omega), Nat.add_comm]
      next =>
        refine .inr (.inr (.inr ⟨by omega, by omega, ?_⟩))
        simp only [hfirst (c.toNat / 262144) 8 (by omega), Nat.add_comm]

/-- The bytes of a smaller character come before those of a greater one, whatever follows. -/
theorem utf8Encode_lt {c d : Char} (h : c < d) (xs ys : List UInt8) :
    utf8EncodeChar c ++ xs < utf8EncodeChar d ++ ys := by
  have hlt : c.toNat < d.toNat := h
  have hsixth : c.toNat / 0x40 ≤ d.toNat / 0x40 := Nat.div_le_div_right (Nat.le_of_lt hlt)
  have htwelfth : c.toNat / 0x1000 ≤ d.toNat / 0x1000 := Nat.div_le_div_right (Nat.le_of_lt hlt)
  rcases utf8EncodeChar_cases c with ⟨_, hc⟩ | ⟨_, _, hc⟩ | ⟨_, _, hc⟩ | ⟨_, _, hc⟩ <;>
    rcases utf8EncodeChar_cases d with ⟨_, hd⟩ | ⟨_, _, hd⟩ | ⟨_, _, hd⟩ | ⟨_, _, hd⟩ <;>
    rw [hc, hd] <;>
    simp (disch := omega) only [List.cons_append, List.nil_append, List.cons_lt_cons_iff,
      UInt8.lt_iff_toNat_lt, ← UInt8.toNat_inj, UInt8.toNat_ofNat', Nat.mod_eq_of_lt] <;>
    omega

theorem utf8_eq_flatMap (s : String) : utf8 s = s.toList.flatMap utf8EncodeChar := by
  rw [utf8, String.toUTF8_eq_toByteArray, ← String.utf8Encode_toList, List.utf8Encode,
    List.toList_data_toByteArray]

theorem nil_lt_utf8EncodeChar (c : Char) (xs : List UInt8) : [] < utf8EncodeChar c ++ xs := by
  rcases utf8EncodeChar_cases c with ⟨_, hc⟩ | ⟨_, _, hc⟩ | ⟨_, _, hc⟩ | ⟨_, _, hc⟩ <;>
    rw [hc] <;> exact List.nil_lt_cons _ _

theorem flatMap_utf8EncodeChar_lt {cs ds : List Char} (h : cs < ds) :
    cs.flatMap utf8EncodeChar < ds.flatMap utf8EncodeChar := by
  induction cs generalizing ds with
  | nil =>
    cases ds with
    | nil => exact absurd h (List.lt_irrefl [])
    | cons d ds => exact nil_lt_utf8EncodeChar d _
  | cons c cs ih =>
    cases ds with
    | nil => exact absurd h (List.not_lt_nil _)
    | cons d ds =>
      rw [List.flatMap_cons, List.flatMap_cons]
      rcases List.cons_lt_cons_iff.1 h with hlt | ⟨rfl, hrest⟩
      · exact utf8Encode_lt hlt _ _
      · exact List.append_left_lt (ih hrest)

/-- The bytes of a smaller text come before those of a greater one. -/
theorem utf8_lt_utf8 {s t : String} (h : s < t) : utf8 s < utf8 t := by
  rw [utf8_eq_flatMap, utf8_eq_flatMap]
  exact flatMap_utf8EncodeChar_lt h

end Reflex.Text
