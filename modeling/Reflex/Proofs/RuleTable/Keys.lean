import Reflex.Proofs.Json.Text
import Reflex.RuleTable

/-!
# The Keys in a Stored Text

The text of a rule begins with its identifier and its name. Whatever follows them, and however it is
read, a rule that is read from the row of a rule has the identifier and the name of this rule.

## Main statements

- `Reflex.Json.exists_of_read?_object`, `Reflex.Json.Selection.exists_of_read?_object`: the
  beginning of an object is read as it was written.
- `Reflex.RuleRow.keys_of_read?`: the rule in the row of a rule.
-/

namespace Reflex

namespace Json

variable {first second s t : String} {next : String × Json} {more : List (String × Json)} {j : Json}

/-- A text is read as a value. -/
theorem readValue?_quoted (s : String) (fuel depth : Nat) (rest : List Char) :
    readValue? (fuel + 1) depth ((quoted s).toList ++ rest) = some (.string s, rest) := by
  obtain ⟨tail, htail, hread⟩ := readString?_quoted s rest
  rw [htail, readValue?, skipSpace_cons (by decide)]
  simp [hread]

theorem toList_renderFields_string (name s : String) (next : String × Json)
    (more : List (String × Json)) (tail : List Char) :
    (renderFields ((name, .string s) :: next :: more)).toList ++ tail = (quoted name).toList ++
      ':' :: ((quoted s).toList ++ ',' :: ((renderFields (next :: more)).toList ++ tail)) := by
  simp [toList_renderFields_cons, render]

/-- A field that is a text is read before the ones behind it. -/
theorem readFields?_string (fuel depth : Nat) (name s : String) (next : String × Json)
    (more : List (String × Json)) (tail : List Char) :
    readFields? (fuel + 2) depth
        ((renderFields ((name, .string s) :: next :: more)).toList ++ tail) =
      (readFields? (fuel + 1) depth ((renderFields (next :: more)).toList ++ tail)).map
        fun r => ((name, .string s) :: r.1, r.2) := by
  rw [toList_renderFields_string]
  obtain ⟨left, hleft, hread⟩ := readString?_quoted name
    (':' :: ((quoted s).toList ++ ',' :: ((renderFields (next :: more)).toList ++ tail)))
  rw [hleft, readFields?, skipSpace_cons (by decide)]
  simp only [hread, Option.bind_eq_bind, Option.bind_some, skipSpace_cons (c := ':') (by decide),
    skipSpace_cons (c := ',') (by decide), readValue?_quoted, String.ofList_toList]
  cases readFields? (fuel + 1) depth ((renderFields (next :: more)).toList ++ tail) <;> rfl

/-- What is read from an object that begins with two texts begins with them. -/
theorem exists_of_read?_object
    (h : read? (object ((first, .string s) :: (second, .string t) :: next :: more)).render =
      some j) :
    ∃ others, j = .object ((first, .string s) :: (second, .string t) :: others) := by
  simp only [read?, Option.bind_eq_bind, Option.bind_eq_some_iff] at h
  obtain ⟨⟨whole, rest⟩, hwhole, hend⟩ := h
  obtain ⟨tail, htail⟩ := head_of_renderFields
    (List.cons_ne_nil (first, .string s) ((second, .string t) :: next :: more))
  rw [toList_render_object, htail, List.cons_append, List.length_cons, List.length_cons,
    readValue?_object (by decide) _ (by decide), ← List.cons_append, ← htail] at hwhole
  obtain ⟨fuel, hfuel⟩ : ∃ fuel, 2 * ((tail ++ ['\x7d']).length + 1 + 1) + 1 = fuel + 3 :=
    ⟨_, (Nat.sub_add_cancel (by omega)).symm⟩
  rw [hfuel, readFields?_string, readFields?_string] at hwhole
  simp only [Option.map_eq_some_iff, exists_exists_and_eq_and, Prod.mk.injEq] at hwhole
  obtain ⟨others, -, rfl, -⟩ := hwhole
  split at hend
  next => exact ⟨others.1, (Option.some.inj hend).symm⟩
  next => cases hend

/-! ## Reading the needed fields only -/

namespace Selection

variable {selected : List (String × Selection)}

theorem readValue?_whole (fuel depth : Nat) (cs : List Char) :
    readValue? (fuel + 1) depth .whole cs = Json.readValue? (2 * cs.length + 2) depth cs := by
  rw [readValue?]
  omega

theorem readFields?_string {name : String} {selection : Selection}
    (hname : selection.field? name = some .whole) (fuel depth : Nat) (s : String)
    (next : String × Json) (more : List (String × Json)) (tail : List Char) :
    readFields? (fuel + 2) depth selection
        ((renderFields ((name, .string s) :: next :: more)).toList ++ tail) =
      (readFields? (fuel + 1) depth selection ((renderFields (next :: more)).toList ++ tail)).map
        fun r => ((name, .string s) :: r.1, r.2) := by
  rw [toList_renderFields_string]
  obtain ⟨left, hleft, hread⟩ := readString?_quoted name
    (':' :: ((quoted s).toList ++ ',' :: ((renderFields (next :: more)).toList ++ tail)))
  rw [hleft, readFields?, skipSpace_cons (by decide)]
  simp only [hread, Option.bind_eq_bind, Option.bind_some, skipSpace_cons (c := ':') (by decide),
    skipSpace_cons (c := ',') (by decide), readValue?_whole, readValue?_quoted,
    String.ofList_toList, hname]
  cases readFields? (fuel + 1) depth selection ((renderFields (next :: more)).toList ++ tail) <;>
    rfl

/-- An object with a field is read from its fields. -/
theorem readValue?_object (fuel : Nat) {depth : Nat} (hdepth : 0 < depth) (tail : List Char) :
    readValue? (fuel + 1) depth (.record selected) ('\x7b' :: '"' :: tail) =
      (readFields? fuel (depth - 1) (.record selected) ('"' :: tail)).map
        fun r => (.object r.1, r.2) := by
  rw [readValue?, skipSpace_cons (by decide)]
  · simp only [skipSpace_cons (c := '"') (by decide), if_neg (Nat.ne_of_gt hdepth)]
    split
    next heq => exact absurd (List.cons.inj heq).1 (by decide)
    next => cases readFields? fuel (depth - 1) (.record selected) ('"' :: tail) <;> rfl
  · simp

/-- What is read from an object that begins with two texts begins with them, if both are needed. -/
theorem exists_of_read?_object (hfirst : (record selected).field? first = some .whole)
    (hsecond : (record selected).field? second = some .whole)
    (h : (record selected).read?
      (object ((first, .string s) :: (second, .string t) :: next :: more)).render = some j) :
    ∃ others, j = .object ((first, .string s) :: (second, .string t) :: others) := by
  simp only [read?, Option.bind_eq_bind, Option.bind_eq_some_iff] at h
  obtain ⟨⟨whole, rest⟩, hwhole, hend⟩ := h
  obtain ⟨tail, htail⟩ := head_of_renderFields
    (List.cons_ne_nil (first, .string s) ((second, .string t) :: next :: more))
  rw [toList_render_object, htail, List.cons_append, List.length_cons, List.length_cons,
    readValue?_object _ (by decide), ← List.cons_append, ← htail] at hwhole
  obtain ⟨fuel, hfuel⟩ : ∃ fuel, 2 * ((tail ++ ['\x7d']).length + 1 + 1) + 1 = fuel + 3 :=
    ⟨_, (Nat.sub_add_cancel (by omega)).symm⟩
  rw [hfuel, readFields?_string hfirst, readFields?_string hsecond] at hwhole
  simp only [Option.map_eq_some_iff, exists_exists_and_eq_and, Prod.mk.injEq] at hwhole
  obtain ⟨others, -, rfl, -⟩ := hwhole
  split at hend
  next => exact ⟨others.1, (Option.some.inj hend).symm⟩
  next => cases hend

end Selection

end Json

/-! ## Rules -/

namespace RuleDefinition

/-- The document of a rule begins with its identifier and its name. -/
theorem exists_toJson_eq (d : RuleDefinition) : ∃ next more, d.toJson =
    .object (("id", .string d.id.text) :: ("name", .string d.name) :: next :: more) :=
  ⟨_, _, rfl⟩

/-- What is read from the text of a rule has its name. -/
theorem name_of_ofStoredText? {fresh : Identifier} {d read : RuleDefinition}
    (h : ofStoredText? fresh d.storedText = some read) : read.name = d.name := by
  obtain ⟨next, more, htoJson⟩ := d.exists_toJson_eq
  rw [ofStoredText?, storedText, htoJson, Option.bind_eq_some_iff] at h
  obtain ⟨j, hj, hread⟩ := h
  -- the document as a whole or what is needed of it, both begin with the keys
  obtain ⟨others, rfl⟩ :
      ∃ others, j = .object (("id", .string d.id.text) :: ("name", .string d.name) :: others) := by
    rcases (Option.orElse_eq_some _ _ _).1 hj with hj | ⟨-, hj⟩
    · exact Json.exists_of_read?_object hj
    · exact Json.Selection.exists_of_read?_object (by rfl) (by rfl) hj
  simp only [ofJson?, Option.bind_eq_bind, Option.bind_eq_some_iff] at hread
  obtain ⟨record, hrecord, _, -, name, hname, _, -, _, -, _, -, _, -, _, -, hout⟩ := hread
  have hfield : record.field? "name" = some (.string d.name) := by
    rw [Json.Record.ofJson?] at hrecord
    split at hrecord
    next => cases hrecord
    next =>
      rw [← Option.some.inj hrecord]
      simp [Json.Record.field?, fieldNames, Dict.lookup]
  rw [Json.Record.required?, hfield] at hname
  rw [← Option.some.inj hout]
  exact (Option.some.inj hname).symm

end RuleDefinition

/-- A rule that is read from the row of a rule has the keys of the row. -/
theorem RuleRow.keys_of_read? {d read : RuleDefinition} (h : (ofRule d).read? = some read) :
    read.id = d.id ∧ read.name = d.name := by
  simp only [read?, ofRule, Identifier.read?_text, Option.bind_eq_bind, Option.bind_some,
    Option.bind_eq_some_iff] at h
  obtain ⟨rule, hrule, hout⟩ := h
  have hname : rule.name = d.name := RuleDefinition.name_of_ofStoredText? hrule
  rw [← Option.some.inj hout]
  exact ⟨rfl, hname⟩

end Reflex
