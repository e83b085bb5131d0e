import Reflex.Proofs.Identifier
import Reflex.Proofs.Json
import Reflex.Proofs.Json.Number

/-!
# Reading Back Documents

A document is read from its text if it nests no deeper than the reader allows and each of its
numbers is read; then only the doubles in it may be others. It is read back if each of its numbers
is. The proof follows the tree; the fuel of the reader must cover the length of the text, once for a
value and once for its place in a list or an object.

## Main definitions

- `Json.nesting`: how deep a document nests.
- `Json.settle`: what a document is read as.
- `Json.Readable`, `Json.Legible`: every number of a document is read, or read back.

## Main statements

- `Json.readString?_quoted`: a text is read back.
- `Json.readValue?_render`: a document is read within another one.
- `Json.read?_render_settle`, `Json.read?_render`: a document is read, or read back.
-/

namespace Reflex.Json

variable {rest : List Char}

/-! ## Texts -/

/-- Four digits are read as the number that they denote. -/
theorem readHex4?_padded {n : Nat} (hn : n < 16 ^ 4) (rest : List Char) :
    readHex4? (Hexadecimal.padded 4 n ++ rest) = some (n, rest) := by
  have hlength : (Hexadecimal.padded 4 n).length = 4 := Hexadecimal.length_padded 4 n
  rw [readHex4?, List.take_left' hlength, List.drop_left' hlength, hlength,
    Hexadecimal.ofDigits?_padded hn]
  rfl

/-- A control character is read from its code point. -/
theorem readEscape?_control {c : Char} (hc : c.val < 0x20) (rest : List Char) :
    readEscape? ('u' :: (Hexadecimal.padded 4 c.toNat ++ rest)) = some (c, rest) := by
  have hsmall : c.toNat < 0x20 := hc
  rw [readEscape?, readHex4?_padded (by omega)]
  have hplain : c.toNat < 0xD800 ∨ 0xDFFF < c.toNat := by omega
  simp [hplain]

/-- A character is read from its written form. -/
theorem readString?_escapeChar (fuel : Nat) (c : Char) (rest : List Char) :
    readString? (fuel + 1) (escapeChar c ++ rest) =
      (readString? fuel rest).map fun r => (c :: r.1, r.2) := by
  -- an escape of two characters, or of a code point, stands for the character
  have hescape : ∀ escape, (∀ rest, readEscape? (escape ++ rest) = some (c, rest)) →
      readString? (fuel + 1) ('\\' :: escape ++ rest) =
        (readString? fuel rest).map fun r => (c :: r.1, r.2) := by
    intro escape hread
    rw [List.cons_append, readString?, if_neg (by decide), if_pos rfl, hread]
    simp only [Option.bind_eq_bind, Option.bind_some]
    rcases readString? fuel rest with _ | ⟨cs, left⟩ <;> rfl
  unfold escapeChar
  by_cases hquote : c = '"'
  · subst hquote
    exact hescape ['"'] fun _ => rfl
  by_cases hbackslash : c = '\\'
  · subst hbackslash
    exact hescape ['\\'] fun _ => rfl
  by_cases hnewline : c = '\n'
  · subst hnewline
    exact hescape ['n'] fun _ => rfl
  by_cases hreturn : c = '\r'
  · subst hreturn
    exact hescape ['r'] fun _ => rfl
  by_cases htab : c = '\t'
  · subst htab
    exact hescape ['t'] fun _ => rfl
  by_cases hbackspace : c = '\x08'
  · subst hbackspace
    exact hescape ['b'] fun _ => rfl
  by_cases hfeed : c = '\x0c'
  · subst hfeed
    exact hescape ['f'] fun _ => rfl
  simp only [hquote, hbackslash, hnewline, hreturn, htab, hbackspace, hfeed, if_false]
  split
  next hcontrol =>
    exact hescape ('u' :: Hexadecimal.padded 4 c.toNat) (readEscape?_control hcontrol)
  next hplain =>
    rw [List.singleton_append, readString?, if_neg hquote, if_neg hbackslash, if_neg hplain]
    cases readString? fuel rest <;> rfl

/-- A text is read up to its closing quote. -/
theorem readString?_chars {fuel : Nat} (cs : List Char) (hfuel : cs.length < fuel)
    (rest : List Char) :
    readString? fuel (cs.flatMap escapeChar ++ '"' :: rest) = some (cs, rest) := by
  induction cs generalizing fuel with
  | nil =>
    cases fuel with
    | zero => cases hfuel
    | succ fuel => simp [readString?]
  | cons c cs ih =>
    cases fuel with
    | zero => cases hfuel
    | succ fuel =>
      rw [List.length_cons] at hfuel
      rw [List.flatMap_cons, List.append_assoc, readString?_escapeChar, ih (by omega)]
      rfl

theorem length_le_flatMap_escapeChar (cs : List Char) :
    cs.length ≤ (cs.flatMap escapeChar).length := by
  induction cs with
  | nil => simp
  | cons c cs ih =>
    have hc : 0 < (escapeChar c).length := by
      unfold escapeChar
      (repeat' split) <;> simp
    rw [List.flatMap_cons, List.length_append, List.length_cons]
    omega

/-! ## Trees -/

mutual

/-- The number of lists and objects around the innermost value. -/
def nesting : Json → Nat
  | .array items => nestingItems items + 1
  | .object fields => nestingFields fields + 1
  | _ => 0

/-- The greatest such number of the items. -/
def nestingItems : List Json → Nat
  | [] => 0
  | item :: items => max item.nesting (nestingItems items)

/-- The greatest such number of the values of the fields. -/
def nestingFields : List (String × Json) → Nat
  | [] => 0
  | (_, value) :: fields => max value.nesting (nestingFields fields)

end

mutual

/-- What a document is read as: its doubles may be read as others. -/
def settle : Json → Json
  | .double d => .double d.settle
  | .array items => .array (settleItems items)
  | .object fields => .object (settleFields fields)
  | j => j

/-- What the items are read as. -/
def settleItems : List Json → List Json
  | [] => []
  | item :: items => item.settle :: settleItems items

/-- What the values of the fields are read as. -/
def settleFields : List (String × Json) → List (String × Json)
  | [] => []
  | (name, value) :: fields => (name, value.settle) :: settleFields fields

end

/-- Only numbers may be written in a way that is not read. -/
def IsReadable : Json → Prop
  | .int n => fitsInt n
  | .double d => d.IsReadable
  | _ => True

/-- Every number of a document is read, if not always as what it was. -/
def Readable (j : Json) : Prop :=
  ∀ part, Within part j → part.IsReadable

/-- Numbers are those documents that may be read otherwise than they were written. -/
def IsLegible : Json → Prop
  | .int n => fitsInt n
  | .double d => d.IsLegible
  | _ => True

/-- Every number of a document is read back. -/
def Legible (j : Json) : Prop :=
  ∀ part, Within part j → part.IsLegible

/-- If the integers fit, only doubles may be read otherwise than they were written. -/
theorem legible_iff {j : Json} (hints : ∀ n, Within (.int n) j → fitsInt n) :
    j.Legible ↔ ∀ d, Within (.double d) j → d.IsLegible := by
  refine ⟨fun h d hpart => h _ hpart, fun h part hpart => ?_⟩
  cases part with
  | int n => exact hints n hpart
  | double d => exact h d hpart
  | _ => trivial

theorem Legible.readable {j : Json} (h : j.Legible) : j.Readable := by
  intro part hpart
  have hlegible := h part hpart
  cases part with
  | double d => exact (Double.isLegible_iff.1 hlegible).1
  | _ => exact hlegible

section Parts

variable {items : List Json} {fields : List (String × Json)}

theorem Legible.item (h : (array items).Legible) : ∀ item ∈ items, item.Legible :=
  fun _ hitem part hpart => h part (.item hitem hpart)

theorem Legible.field (h : (object fields).Legible) : ∀ field ∈ fields, field.2.Legible :=
  fun _ hfield part hpart => h part (.field hfield hpart)

theorem Readable.item (h : (array items).Readable) : ∀ item ∈ items, item.Readable :=
  fun _ hitem part hpart => h part (.item hitem hpart)

theorem Readable.field (h : (object fields).Readable) : ∀ field ∈ fields, field.2.Readable :=
  fun _ hfield part hpart => h part (.field hfield hpart)

end Parts

mutual

/-- What is read back stays as it is. -/
theorem settle_eq_self : ∀ j : Json, j.Legible → j.settle = j
  | .null, _ | .bool _, _ | .int _, _ | .string _, _ => by simp only [settle]
  | .double d, h => by rw [settle, (Double.isLegible_iff.1 (h _ .refl)).2]
  | .array items, h => by rw [settle, settleItems_eq_self items h.item]
  | .object fields, h => by rw [settle, settleFields_eq_self fields h.field]

theorem settleItems_eq_self : ∀ items : List Json, (∀ item ∈ items, item.Legible) →
    settleItems items = items
  | [], _ => rfl
  | item :: items, h => by
    rw [List.forall_mem_cons] at h
    rw [settleItems, settle_eq_self item h.1, settleItems_eq_self items h.2]

theorem settleFields_eq_self : ∀ fields : List (String × Json),
    (∀ field ∈ fields, field.2.Legible) → settleFields fields = fields
  | [], _ => rfl
  | (name, value) :: fields, h => by
    rw [List.forall_mem_cons] at h
    rw [settleFields, settle_eq_self value h.1, settleFields_eq_self fields h.2]

end

/-! ## Beginnings -/

/-- The characters that begin no value. -/
def Idle (c : Char) : Prop :=
  c = ' ' ∨ c = '\n' ∨ c = '\t' ∨ c = '\r' ∨ c = ']' ∨ c = '\x7d'

instance (c : Char) : Decidable (Idle c) := by
  unfold Idle; infer_instance

theorem skipSpace_cons {c : Char} (hc : ¬ Idle c) (rest : List Char) :
    skipSpace (c :: rest) = c :: rest := by
  unfold Idle at hc
  simp only [not_or] at hc
  simp [skipSpace, hc]

/-- What begins like a number is read as one. -/
theorem readValue?_of_number {c : Char} (hc : c = '-' ∨ Decimal.isDigit c = true) (fuel depth : Nat)
    (rest : List Char) : readValue? (fuel + 1) depth (c :: rest) = readNumber? (c :: rest) := by
  have hidle : ¬ Idle c := by
    rintro (rfl | rfl | rfl | rfl | rfl | rfl) <;> revert hc <;> decide
  rw [readValue?, skipSpace_cons hidle]
  split
  case h_7 => rfl
  all_goals
    rename_i heq
    obtain ⟨rfl, -⟩ := List.cons.inj heq
    exact absurd hc (by decide)

/-! The text of a document, by the parts of the document. -/

section Render

theorem toList_quoted (s : String) :
    (quoted s).toList = '"' :: (s.toList.flatMap escapeChar ++ ['"']) := by
  simp [quoted]

theorem toList_render_array (items : List Json) :
    (render (.array items)).toList = '[' :: ((renderItems items).toList ++ [']']) := by
  simp [render]

theorem toList_render_object (fields : List (String × Json)) :
    (render (.object fields)).toList = '\x7b' :: ((renderFields fields).toList ++ ['\x7d']) := by
  simp [render]

theorem toList_renderItems_cons (item next : Json) (items : List Json) :
    (renderItems (item :: next :: items)).toList =
      item.render.toList ++ ',' :: (renderItems (next :: items)).toList := by
  simp [renderItems]

theorem toList_renderFields_singleton (name : String) (value : Json) :
    (renderFields [(name, value)]).toList = (quoted name).toList ++ ':' :: value.render.toList := by
  simp [renderFields]

theorem toList_renderFields_cons (name : String) (value : Json) (next : String × Json)
    (fields : List (String × Json)) :
    (renderFields ((name, value) :: next :: fields)).toList =
      (quoted name).toList ++
        ':' :: (value.render.toList ++ ',' :: (renderFields (next :: fields)).toList) := by
  simp [renderFields]

end Render

/-- The text of a document begins with a character that begins a value. -/
theorem head_of_render {j : Json} (h : j.Readable) :
    ∃ c tail, j.render.toList = c :: tail ∧ ¬ Idle c := by
  have hnumber : ∀ cs read, readNumber? cs = some (read, []) → ∃ c tail, cs = c :: tail ∧ ¬ Idle c := by
    intro cs read hread
    obtain ⟨c, tail, hcs, hc⟩ := head_of_readNumber? hread
    refine ⟨c, tail, hcs, ?_⟩
    rintro (rfl | rfl | rfl | rfl | rfl | rfl) <;> revert hc <;> decide
  cases j with
  | null => exact ⟨'n', ['u', 'l', 'l'], rfl, by decide⟩
  | bool b =>
    cases b with
    | true => exact ⟨'t', ['r', 'u', 'e'], rfl, by decide⟩
    | false => exact ⟨'f', ['a', 'l', 's', 'e'], rfl, by decide⟩
  | int n => exact hnumber _ _ (readNumber?_intText (h (.int n) .refl))
  | double d => exact hnumber _ _ (h (.double d) .refl)
  | string s => exact ⟨'"', _, toList_quoted s, by decide⟩
  | array items => exact ⟨'[', _, toList_render_array items, by decide⟩
  | object fields => exact ⟨'\x7b', _, toList_render_object fields, by decide⟩

/-- So does the text of the items of a list. -/
theorem head_of_renderItems {items : List Json} (h : ∀ item ∈ items, item.Readable)
    (hne : items ≠ []) : ∃ c tail, (renderItems items).toList = c :: tail ∧ ¬ Idle c := by
  cases items with
  | nil => exact absurd rfl hne
  | cons item items =>
    obtain ⟨c, tail, htext, hc⟩ := head_of_render (h item List.mem_cons_self)
    cases items with
    | nil => exact ⟨c, tail, by rw [renderItems, htext], hc⟩
    | cons next items =>
      rw [toList_renderItems_cons, htext]
      exact ⟨c, _, rfl, hc⟩

/-- The text of the fields of an object begins with a quote. -/
theorem head_of_renderFields {fields : List (String × Json)} (hne : fields ≠ []) :
    ∃ tail, (renderFields fields).toList = '"' :: tail := by
  cases fields with
  | nil => exact absurd rfl hne
  | cons field fields =>
    cases fields with
    | nil => exact ⟨_, by rw [toList_renderFields_singleton, toList_quoted, List.cons_append]⟩
    | cons next fields =>
      exact ⟨_, by rw [toList_renderFields_cons, toList_quoted, List.cons_append]⟩

/-! ## Documents within documents -/

/-- A number is read back within a document. -/
theorem readValue?_of_readNumber? {cs : List Char} {j : Json}
    (hread : readNumber? cs = some (j, [])) (fuel depth : Nat) (hrest : Ends rest) :
    readValue? (fuel + 1) depth (cs ++ rest) = some (j, rest) := by
  have hwithin := readNumber?_append hrest hread
  obtain ⟨c, tail, rfl, hc⟩ := head_of_readNumber? hread
  exact (readValue?_of_number hc fuel depth (tail ++ rest)).trans hwithin

/-- A text is read back within a document. -/
theorem readString?_quoted (s : String) (rest : List Char) :
    ∃ tail, (quoted s).toList ++ rest = '"' :: tail ∧
      readString? (tail.length + 1) tail = some (s.toList, rest) := by
  refine ⟨s.toList.flatMap escapeChar ++ '"' :: rest, by simp [toList_quoted], ?_⟩
  have hlength := length_le_flatMap_escapeChar s.toList
  refine readString?_chars s.toList ?_ rest
  rw [List.length_append]
  omega

theorem ends_comma (rest : List Char) : Ends (',' :: rest) := by simp [Ends]

theorem ends_bracket (rest : List Char) : Ends (']' :: rest) := by simp [Ends]

theorem ends_brace (rest : List Char) : Ends ('\x7d' :: rest) := by simp [Ends]

/-- Fuel that covers a text twice is enough for two steps. -/
theorem exists_fuel (j : Json) (h : j.Readable) (fuel : Nat)
    (hfuel : 2 * j.render.toList.length ≤ fuel) : ∃ k, fuel = k + 2 := by
  obtain ⟨c, tail, htext, -⟩ := head_of_render h
  rw [htext, List.length_cons] at hfuel
  exact ⟨fuel - 2, by omega⟩

/-- A list that is not empty is read from its items. -/
theorem readValue?_array {c : Char} (hc : ¬ Idle c) (fuel : Nat) {depth : Nat} (hdepth : 0 < depth)
    (tail : List Char) : readValue? (fuel + 1) depth ('[' :: c :: tail) =
      (readItems? fuel (depth - 1) (c :: tail)).map fun r => (.array r.1, r.2) := by
  have hbracket : c ≠ ']' := by
    rintro rfl
    exact hc (by decide)
  rw [readValue?, skipSpace_cons (by decide)]
  simp only [skipSpace_cons hc, if_neg (Nat.ne_of_gt hdepth)]
  split
  next heq => exact absurd (List.cons.inj heq).1 hbracket
  next => cases readItems? fuel (depth - 1) (c :: tail) <;> rfl

/-- An object that is not empty is read from its fields. -/
theorem readValue?_object {c : Char} (hc : ¬ Idle c) (fuel : Nat) {depth : Nat} (hdepth : 0 < depth)
    (tail : List Char) : readValue? (fuel + 1) depth ('\x7b' :: c :: tail) =
      (readFields? fuel (depth - 1) (c :: tail)).map fun r => (.object r.1, r.2) := by
  have hbrace : c ≠ '\x7d' := by
    rintro rfl
    exact hc (by decide)
  rw [readValue?, skipSpace_cons (by decide)]
  simp only [skipSpace_cons hc, if_neg (Nat.ne_of_gt hdepth)]
  split
  next heq => exact absurd (List.cons.inj heq).1 hbrace
  next => cases readFields? fuel (depth - 1) (c :: tail) <;> rfl

section Fields

variable {fuel depth : Nat} {cs : List Char} {value : Json}

/-- The last field of an object is read from its name and its value. -/
theorem readFields?_last (name : String)
    (hvalue : readValue? fuel depth cs = some (value, '\x7d' :: rest)) :
    readFields? (fuel + 1) depth ((quoted name).toList ++ ':' :: cs) =
      some ([(name, value)], rest) := by
  obtain ⟨tail, htail, hread⟩ := readString?_quoted name (':' :: cs)
  rw [htail, readFields?, skipSpace_cons (by decide)]
  simp [hread, hvalue, skipSpace]

/-- A field with others behind it is read from its name and its value. -/
theorem readFields?_cons (name : String) {left : List Char} {fields : List (String × Json)}
    (hvalue : readValue? fuel depth cs = some (value, ',' :: left))
    (hfields : readFields? fuel depth left = some (fields, rest)) :
    readFields? (fuel + 1) depth ((quoted name).toList ++ ':' :: cs) =
      some ((name, value) :: fields, rest) := by
  obtain ⟨tail, htail, hread⟩ := readString?_quoted name (':' :: cs)
  rw [htail, readFields?, skipSpace_cons (by decide)]
  simp [hread, hvalue, skipSpace, hfields]

end Fields

mutual

/-- A document is read within another one. -/
theorem readValue?_render : ∀ (j : Json) (fuel depth : Nat) (rest : List Char), j.Readable →
    Ends rest → 2 * j.render.toList.length ≤ fuel + 1 → j.nesting ≤ depth →
    readValue? (fuel + 1) depth (j.render.toList ++ rest) = some (j.settle, rest)
  | .null | .bool true | .bool false => by intros; rfl
  | .int n => fun fuel depth _ h hrest _ _ =>
    readValue?_of_readNumber? (readNumber?_intText (h (.int n) .refl)) fuel depth hrest
  | .double d => fun fuel depth _ h hrest _ _ =>
    readValue?_of_readNumber? (h (.double d) .refl) fuel depth hrest
  | .string s => by
    intro fuel depth rest _ _ _ _
    obtain ⟨tail, htail, hread⟩ := readString?_quoted s rest
    rw [render, htail, readValue?, skipSpace_cons (by decide)]
    simp [hread, settle]
  | .array items => by
    intro fuel depth rest h _ hfuel hdepth
    rw [toList_render_array, List.length_cons, List.length_append] at hfuel
    rw [nesting] at hdepth
    rw [toList_render_array, List.cons_append, List.append_assoc, List.singleton_append]
    by_cases hne : items = []
    · subst hne
      have hopen : depth ≠ 0 := by omega
      simp [renderItems, readValue?, skipSpace, hopen, settle, settleItems]
    · have hitems := readItems?_renderItems items fuel (depth - 1) rest hne h.item (by omega)
        (by omega)
      obtain ⟨c, tail, htext, hc⟩ := head_of_renderItems h.item hne
      rw [htext, List.cons_append] at hitems ⊢
      rw [readValue?_array hc fuel (by omega), hitems]
      rfl
  | .object fields => by
    intro fuel depth rest h _ hfuel hdepth
    rw [toList_render_object, List.length_cons, List.length_append] at hfuel
    rw [nesting] at hdepth
    rw [toList_render_object, List.cons_append, List.append_assoc, List.singleton_append]
    by_cases hne : fields = []
    · subst hne
      have hopen : depth ≠ 0 := by omega
      simp [renderFields, readValue?, skipSpace, hopen, settle, settleFields]
    · have hfields := readFields?_renderFields fields fuel (depth - 1) rest hne h.field (by omega)
        (by omega)
      obtain ⟨tail, htext⟩ := head_of_renderFields hne
      rw [htext, List.cons_append] at hfields ⊢
      rw [readValue?_object (by decide) fuel (by omega), hfields]
      rfl

/-- The items of a list are read up to its end. -/
theorem readItems?_renderItems : ∀ (items : List Json) (fuel depth : Nat) (rest : List Char),
    items ≠ [] → (∀ item ∈ items, item.Readable) →
    2 * (renderItems items).toList.length < fuel → nestingItems items ≤ depth →
    readItems? fuel depth ((renderItems items).toList ++ ']' :: rest) =
      some (settleItems items, rest)
  | [] => fun _ _ _ hne => absurd rfl hne
  | [item] => by
    intro fuel depth rest _ h hfuel hdepth
    rw [List.forall_mem_singleton] at h
    simp only [renderItems, nestingItems] at hfuel hdepth ⊢
    obtain ⟨fuel, rfl⟩ := exists_fuel item h fuel (by omega)
    have hitem := readValue?_render item fuel depth (']' :: rest) h (ends_bracket rest) (by omega)
      (by omega)
    simp [readItems?, hitem, skipSpace, settleItems]
  | item :: next :: items => by
    intro fuel depth rest _ h hfuel hdepth
    rw [List.forall_mem_cons] at h
    rw [nestingItems] at hdepth
    rw [toList_renderItems_cons] at hfuel ⊢
    rw [List.length_append, List.length_cons] at hfuel
    obtain ⟨fuel, rfl⟩ := exists_fuel item h.1 fuel (by omega)
    have hitem := readValue?_render item fuel depth
      (',' :: ((renderItems (next :: items)).toList ++ ']' :: rest)) h.1 (ends_comma _) (by omega)
      (by omega)
    have hitems := readItems?_renderItems (next :: items) (fuel + 1) depth rest (by simp) h.2
      (by omega) (by omega)
    rw [List.append_assoc, List.cons_append, readItems?, hitem]
    simp [skipSpace, hitems, settleItems]

/-- The fields of an object are read up to its end. -/
theorem readFields?_renderFields : ∀ (fields : List (String × Json)) (fuel depth : Nat)
    (rest : List Char), fields ≠ [] → (∀ field ∈ fields, field.2.Readable) →
    2 * (renderFields fields).toList.length < fuel → nestingFields fields ≤ depth →
    readFields? fuel depth ((renderFields fields).toList ++ '\x7d' :: rest) =
      some (settleFields fields, rest)
  | [] => fun _ _ _ hne => absurd rfl hne
  | [(name, value)] => by
    intro fuel depth rest _ h hfuel hdepth
    rw [List.forall_mem_singleton] at h
    simp only [nestingFields] at hdepth
    rw [toList_renderFields_singleton] at hfuel ⊢
    rw [List.length_append, List.length_cons] at hfuel
    obtain ⟨fuel, rfl⟩ := exists_fuel value h fuel (by omega)
    have hvalue := readValue?_render value fuel depth ('\x7d' :: rest) h (ends_brace rest)
      (by omega) (by omega)
    rw [List.append_assoc, List.cons_append]
    exact readFields?_last name hvalue
  | (name, value) :: next :: fields => by
    intro fuel depth rest _ h hfuel hdepth
    rw [List.forall_mem_cons] at h
    rw [nestingFields] at hdepth
    rw [toList_renderFields_cons] at hfuel ⊢
    rw [List.length_append, List.length_cons, List.length_append, List.length_cons] at hfuel
    obtain ⟨fuel, rfl⟩ := exists_fuel value h.1 fuel (by omega)
    have hvalue := readValue?_render value fuel depth
      (',' :: ((renderFields (next :: fields)).toList ++ '\x7d' :: rest)) h.1 (ends_comma _)
      (by omega) (by omega)
    have hfields := readFields?_renderFields (next :: fields) (fuel + 1) depth rest (by simp) h.2
      (by omega) (by omega)
    rw [List.append_assoc, List.cons_append, List.append_assoc, List.cons_append]
    exact readFields?_cons name hvalue hfields

end

/-- A document is read if it nests no deeper than the reader allows and its numbers are read. -/
theorem read?_render_settle {j : Json} (h : j.Readable) (hnesting : j.nesting ≤ maxDepth) :
    read? j.render = some j.settle := by
  have hread := readValue?_render j (2 * j.render.toList.length + 1) maxDepth [] h ends_nil
    (by omega) hnesting
  rw [List.append_nil] at hread
  rw [read?, hread]
  rfl

/-- It is read back if its numbers are read back. -/
theorem read?_render {j : Json} (h : j.Legible) (hnesting : j.nesting ≤ maxDepth) :
    read? j.render = some j := by
  rw [read?_render_settle h.readable hnesting, settle_eq_self j h]

end Reflex.Json
