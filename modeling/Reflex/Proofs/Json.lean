import Reflex.Json.Field

/-!
# Documents in Their Canonical Form

What is in canonical form already stays as it is, so a literal is read back from its document. A
record is read back from an object with the fields that belong to it.

## Main definitions

- `Reflex.Json.Within`: the parts of a document.
- `Reflex.Json.DistinctNames`: documents without repeated names, such as free values and settings
  files.

## Main statements

- `Reflex.Json.canonicalize_eq_self`, `Reflex.Literal.ofJson_json`: reading back a literal.
- `Reflex.Json.get?_canonicalize`: the fields of the canonical form of an object.
- `Reflex.Json.Record.ofJson?_object`: reading back a record.
-/

namespace Reflex

namespace Json

/-! ## Canonical documents -/

mutual

/-- A canonical document is its own canonical form. -/
theorem canonicalize_eq_self : ∀ {j : Json}, j.Canonical → j.canonicalize = j
  | .null, _ | .bool _, _ | .string _, _ => by simp only [canonicalize]
  | .int n, h => by
    rw [Canonical] at h
    rw [canonicalize, if_pos h]
  | .double d, h => by
    rw [Canonical] at h
    rw [canonicalize, canonicalize.canonicalDouble, if_pos h]
  | .array items, h => by
    rw [Canonical] at h
    rw [canonicalize, canonicalizeItems_eq_self h]
  | .object fields, h => by
    rw [Canonical] at h
    rw [canonicalize, canonicalizeFields_eq_self h.2, Dict.ofList_entries ⟨fields, h.1⟩]

theorem canonicalizeItems_eq_self : ∀ {items : List Json}, CanonicalItems items →
    canonicalizeItems items = items
  | [], _ => rfl
  | item :: items, h => by
    rw [CanonicalItems] at h
    rw [canonicalizeItems, canonicalize_eq_self h.1, canonicalizeItems_eq_self h.2]

theorem canonicalizeFields_eq_self : ∀ {fields : List (String × Json)}, CanonicalFields fields →
    canonicalizeFields fields = fields
  | [], _ => rfl
  | (name, value) :: fields, h => by
    rw [CanonicalFields] at h
    rw [canonicalizeFields, canonicalize_eq_self h.1, canonicalizeFields_eq_self h.2]

end

theorem canonicalizeFields_eq_map (fields : List (String × Json)) :
    canonicalizeFields fields = fields.map fun e => (e.1, e.2.canonicalize) := by
  induction fields with
  | nil => rfl
  | cons e fields ih => rw [canonicalizeFields, ih, List.map_cons]

/-- A field of the canonical form of an object is the canonical form of the last field with its
name. -/
theorem get?_canonicalize (fields : List (String × Json)) (name : String) :
    (Dict.ofList (canonicalizeFields fields)).get? name =
      ((Dict.ofList fields).get? name).map canonicalize := by
  rw [canonicalizeFields_eq_map, ← Dict.map_ofList, Dict.get?_map]

/-- Only a text has a text as its canonical form. -/
theorem canonicalize_eq_string {j : Json} {s : String} :
    j.canonicalize = .string s ↔ j = .string s := by
  cases j <;> simp only [canonicalize, canonicalize.canonicalDouble] <;> (repeat' split) <;> simp

/-- Only an object has an object as its canonical form. -/
theorem exists_of_canonicalize_eq_object {j : Json} {fields : List (String × Json)}
    (h : j.canonicalize = .object fields) :
    ∃ written, j = .object written ∧
      (Dict.ofList (canonicalizeFields written)).entries = fields := by
  cases j with
  | object written => exact ⟨written, rfl, Json.object.inj h⟩
  | _ =>
    simp only [canonicalize, canonicalize.canonicalDouble] at h
    (repeat' split at h) <;> cases h

/-- What is found in a document is found among the fields of an object. -/
theorem field?_eq_some {j value : Json} {name : String} :
    j.field? name = some value ↔
      ∃ fields, j = .object fields ∧ Dict.lookup name fields = some value := by
  cases j <;> simp [field?]

/-! ## Parts of documents -/

/-- A document is a part of itself and of the documents around it. -/
inductive Within (part : Json) : Json → Prop where
  -- The document itself.
  | refl : Within part part
  -- A part of an item of a list.
  | item {items : List Json} {item : Json} (hitem : item ∈ items) (hpart : Within part item) :
    Within part (.array items)
  -- A part of the value of a field of an object.
  | field {fields : List (String × Json)} {field : String × Json} (hfield : field ∈ fields)
    (hpart : Within part field.2) : Within part (.object fields)

section Within

variable {part whole : Json} {items : List Json} {fields : List (String × Json)}

theorem within_array :
    Within part (.array items) ↔ part = .array items ∨ ∃ item ∈ items, Within part item := by
  constructor
  · intro h
    cases h with
    | refl => exact .inl rfl
    | item hitem hpart => exact .inr ⟨_, hitem, hpart⟩
  · rintro (rfl | ⟨item, hitem, hpart⟩)
    · exact .refl
    · exact .item hitem hpart

theorem within_object :
    Within part (.object fields) ↔ part = .object fields ∨ ∃ e ∈ fields, Within part e.2 := by
  constructor
  · intro h
    cases h with
    | refl => exact .inl rfl
    | field hfield hpart => exact .inr ⟨_, hfield, hpart⟩
  · rintro (rfl | ⟨e, he, hpart⟩)
    · exact .refl
    · exact .field he hpart

@[simp] theorem within_bool {b : Bool} : Within part (.bool b) ↔ part = .bool b :=
  ⟨fun h => by cases h; rfl, fun h => h ▸ .refl⟩

@[simp] theorem within_int {n : Int} : Within part (.int n) ↔ part = .int n :=
  ⟨fun h => by cases h; rfl, fun h => h ▸ .refl⟩

@[simp] theorem within_double {d : Double} : Within part (.double d) ↔ part = .double d :=
  ⟨fun h => by cases h; rfl, fun h => h ▸ .refl⟩

@[simp] theorem within_string {s : String} : Within part (.string s) ↔ part = .string s :=
  ⟨fun h => by cases h; rfl, fun h => h ▸ .refl⟩

theorem Within.trans {j : Json} (hpart : Within part j) (hj : Within j whole) :
    Within part whole := by
  induction hj with
  | refl => exact hpart
  | item hitem _ ih => exact .item hitem ih
  | field hfield _ ih => exact .field hfield ih

/-- The parts of a canonical document are canonical. -/
theorem Canonical.within (hcanonical : whole.Canonical) (hpart : Within part whole) :
    part.Canonical := by
  induction hpart with
  | refl => exact hcanonical
  | item hitem _ ih => exact ih (canonicalItems_iff.1 hcanonical _ hitem)
  | field hfield _ ih => exact ih (canonicalFields_iff.1 hcanonical.2 _ hfield)

end Within

/-! ## Documents without repeated names -/

/-- No object of a document gives a name twice. -/
inductive DistinctNames : Json → Prop where
  -- The absent value.
  | null : DistinctNames .null
  -- A truth value.
  | bool (b : Bool) : DistinctNames (.bool b)
  -- A number.
  | int (n : Int) : DistinctNames (.int n)
  -- A number.
  | double (d : Double) : DistinctNames (.double d)
  -- A text.
  | string (s : String) : DistinctNames (.string s)
  -- A list of such documents.
  | array {items : List Json} (hitems : ∀ item ∈ items, DistinctNames item) :
    DistinctNames (.array items)
  -- An object with different names for such documents.
  | object {fields : List (String × Json)} (hnames : (fields.map (·.1)).Nodup)
    (hvalues : ∀ field ∈ fields, DistinctNames field.2) : DistinctNames (.object fields)

@[simp] theorem distinctNames_array {items : List Json} :
    DistinctNames (.array items) ↔ ∀ item ∈ items, DistinctNames item :=
  ⟨fun h => by cases h; assumption, .array⟩

@[simp] theorem distinctNames_object {fields : List (String × Json)} :
    DistinctNames (.object fields) ↔
      (fields.map (·.1)).Nodup ∧ ∀ field ∈ fields, DistinctNames field.2 :=
  ⟨fun h => by cases h; exact ⟨‹_›, ‹_›⟩, fun h => .object h.1 h.2⟩

attribute [simp] DistinctNames.null DistinctNames.bool DistinctNames.int DistinctNames.double
  DistinctNames.string

theorem DistinctNames.within {whole part : Json} (hnames : whole.DistinctNames)
    (hpart : Within part whole) : part.DistinctNames := by
  induction hpart with
  | refl => exact hnames
  | item hitem _ ih => exact ih (distinctNames_array.1 hnames _ hitem)
  | field hfield _ ih => exact ih ((distinctNames_object.1 hnames).2 _ hfield)

/-- The fields of a canonical object have different names. -/
theorem Canonical.nodup {fields : List (String × Json)} (h : (object fields).Canonical) :
    (fields.map (·.1)).Nodup := by
  rw [Canonical] at h
  exact Dict.nodup_keys ⟨fields, h.1⟩

/-! ## Equality -/

mutual

/-- Whether two documents are the same. -/
def same : Json → Json → Bool
  | .null, .null => true
  | .bool a, .bool b => a = b
  | .int a, .int b => a = b
  | .double a, .double b => a = b
  | .string a, .string b => a = b
  | .array a, .array b => sameItems a b
  | .object a, .object b => sameFields a b
  | _, _ => false

/-- Whether two lists hold the same items. -/
def sameItems : List Json → List Json → Bool
  | [], [] => true
  | a :: as, b :: bs => same a b && sameItems as bs
  | _, _ => false

/-- Whether two objects have the same fields in the same order. -/
def sameFields : List (String × Json) → List (String × Json) → Bool
  | [], [] => true
  | (k, a) :: as, (l, b) :: bs => k = l && same a b && sameFields as bs
  | _, _ => false

end

mutual

theorem same_iff : ∀ a b : Json, same a b = true ↔ a = b
  | .null, b | .bool _, b | .int _, b | .double _, b | .string _, b => by cases b <;> simp [same]
  | .array items, b => by cases b <;> simp [same, sameItems_iff items]
  | .object fields, b => by cases b <;> simp [same, sameFields_iff fields]

theorem sameItems_iff : ∀ as bs : List Json, sameItems as bs = true ↔ as = bs
  | [], bs => by cases bs <;> simp [sameItems]
  | a :: as, bs => by cases bs <;> simp [sameItems, same_iff a, sameItems_iff as]

theorem sameFields_iff : ∀ as bs : List (String × Json), sameFields as bs = true ↔ as = bs
  | [], bs => by cases bs <;> simp [sameFields]
  | (k, a) :: as, bs => by
    rcases bs with _ | ⟨⟨l, b⟩, bs⟩ <;> simp [sameFields, same_iff a, sameFields_iff as]

end

instance : DecidableEq Json := fun a b => decidable_of_iff _ (same_iff a b)

end Json

/-- A literal is read back from its document. -/
@[simp] theorem Literal.ofJson_json (l : Literal) : ofJson l.json = l := by
  have hsame : l.json.canonicalize = l.json := Json.canonicalize_eq_self l.canonical
  simp only [ofJson, hsame]

namespace Json.Record

variable {names : List String} {r : Reading} {fields : List (String × Json)}

@[simp] theorem field?_nil (name : String) : field? ⟨[]⟩ name = none := rfl

@[simp] theorem field?_cons (name key : String) (value : Json) :
    field? ⟨(key, value) :: fields⟩ name =
      if name = key then some value else field? ⟨fields⟩ name :=
  rfl

/-- A field that is there and not null is read. -/
theorem optional?_of_field? {α : Type} {record : Record} {name : String} {value : Json}
    (h : record.field? name = some value) (hnull : value ≠ .null) (read : Json → Option α) :
    record.optional? name read = (read value).map some := by
  rw [optional?, h]
  cases value <;> first | rfl | exact absurd rfl hnull

/-- An object with fields of a record and no others, and each of them once, is read as they
stand. -/
theorem ofJson?_object (hknown : ∀ field ∈ fields, field.1 ∈ names)
    (hdistinct : (fields.map (·.1)).Nodup) : ofJson? names r (.object fields) = some ⟨fields⟩ := by
  have hall : (fields.filter fun e => names.contains e.1) = fields :=
    List.filter_eq_self.2 fun e he => List.contains_iff_mem.2 (hknown e he)
  have honce :
      ¬ (names.any fun name => 1 < (fields.filter fun e => e.1 == name).length) = true := by
    rw [List.any_eq_true]
    rintro ⟨name, -, htwice⟩
    rw [Dict.filter_key (List.nodup_iff_count.1 hdistinct name), decide_eq_true_iff] at htwice
    cases hlookup : Dict.lookup name fields <;> simp [hlookup] at htwice
  rw [ofJson?]
  simp only [hall, if_neg honce]

/-- The fields of a record are parts of its document. -/
theorem within_of_field? {j value : Json} {record : Record} {name : String}
    (h : ofJson? names r j = some record) (hvalue : record.field? name = some value) :
    Within value j := by
  have hmem := Dict.mem_of_lookup hvalue
  cases j with
  | array items =>
    rw [ofJson?] at h
    split at h
    · cases h
    · obtain rfl := Option.some.inj h
      exact .item (List.of_mem_zip hmem).2 .refl
  | object fields =>
    rw [ofJson?] at h
    split at h
    · cases h
    · obtain rfl := Option.some.inj h
      exact .field (List.mem_filter.1 hmem).1 .refl
  | _ => cases h

end Json.Record

end Reflex
