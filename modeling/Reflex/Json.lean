import Reflex.Dict
import Reflex.Number.Hexadecimal

/-!
# Documents

A document is a tree of null, truth values, numbers, texts, lists and objects. The fields of an
object stand in the order in which they were written and a name may repeat, because readers of
records refuse repeated names. A `Literal` is a document in the one canonical form that a free
value is kept in: names increase strictly, integers fit into 64 bits, and doubles are finite.

## Main definitions

- `Reflex.Json`: the tree, `Reflex.Json.render`: its text without spaces.
- `Reflex.Json.Canonical`, `Reflex.Literal`: the canonical form.
- `Reflex.Literal.ofJson`: the canonical form of any document; of a repeated name the last
  field stays.
-/

namespace Reflex

/-- A document. -/
inductive Json where
  -- The absent value.
  | null
  -- A truth value.
  | bool (value : Bool)
  -- A number that was written as an integer.
  | int (value : Int)
  -- Any other number.
  | double (value : Double)
  -- A text.
  | string (value : String)
  -- A list.
  | array (items : List Json)
  -- An object, as its fields in the order written.
  | object (fields : List (String × Json))
  deriving Inhabited

namespace Json

/-! ## Text -/

/-- The written form of one character of a text: quotes, backslashes and control characters
are escaped, all others stand for themselves. -/
def escapeChar (c : Char) : List Char :=
  if c = '"' then ['\\', '"']
  else if c = '\\' then ['\\', '\\']
  else if c = '\n' then ['\\', 'n']
  else if c = '\r' then ['\\', 'r']
  else if c = '\t' then ['\\', 't']
  else if c = '\x08' then ['\\', 'b']
  else if c = '\x0c' then ['\\', 'f']
  else if c.val < 0x20 then
    ['\\', 'u'] ++ Hexadecimal.padded 4 c.toNat
  else [c]

/-- A text between quotes. -/
def quoted (s : String) : String :=
  String.ofList ('"' :: s.toList.flatMap escapeChar ++ ['"'])

mutual

/-- The text of a document, without spaces and with the fields in their order. -/
def render : Json → String
  | .null => "null"
  | .bool true => "true"
  | .bool false => "false"
  | .int n => Decimal.intText n
  | .double d => Decimal.Layout.scientific.text d
  | .string s => quoted s
  | .array items => "[" ++ renderItems items ++ "]"
  | .object fields => "\x7b" ++ renderFields fields ++ "\x7d"

/-- The items of a list between commas. -/
def renderItems : List Json → String
  | [] => ""
  | [item] => item.render
  | item :: items => item.render ++ "," ++ renderItems items

/-- The fields of an object between commas. -/
def renderFields : List (String × Json) → String
  | [] => ""
  | [(name, value)] => quoted name ++ ":" ++ value.render
  | (name, value) :: fields =>
    quoted name ++ ":" ++ value.render ++ "," ++ renderFields fields

end

/-- The name of the kind of a document. -/
def kind : Json → String
  | .null => "null"
  | .bool _ => "bool"
  | .int _ | .double _ => "number"
  | .string _ => "string"
  | .array _ => "array"
  | .object _ => "object"

mutual

/-- The number of levels of a document. -/
def depth : Json → Nat
  | .array items => depthItems items + 1
  | .object fields => depthFields fields + 1
  | _ => 1

/-- The greatest number of levels of the items. -/
def depthItems : List Json → Nat
  | [] => 0
  | item :: items => max item.depth (depthItems items)

/-- The greatest number of levels of the values of the fields. -/
def depthFields : List (String × Json) → Nat
  | [] => 0
  | (_, value) :: fields => max value.depth (depthFields fields)

end

/-! ## Canonical form -/

/-- Whether an integer fits into 64 bits, with or without a sign. -/
def fitsInt (n : Int) : Prop :=
  -Word.half ≤ n ∧ n < Word.size

instance (n : Int) : Decidable (fitsInt n) := by
  unfold fitsInt; infer_instance

mutual

/-- The form in which free values are kept. -/
def Canonical : Json → Prop
  | .null | .bool _ | .string _ => True
  | .int n => fitsInt n
  | .double d => d.isFinite = true
  | .array items => CanonicalItems items
  | .object fields => (fields.Pairwise fun a b => a.1 < b.1) ∧ CanonicalFields fields

/-- Every item is canonical. -/
def CanonicalItems : List Json → Prop
  | [] => True
  | item :: items => item.Canonical ∧ CanonicalItems items

/-- Every field has a canonical value. -/
def CanonicalFields : List (String × Json) → Prop
  | [] => True
  | (_, value) :: fields => value.Canonical ∧ CanonicalFields fields

end

mutual

/-- The canonical form of a document. What is no finite number becomes null, and of a repeated
name the last field stays. -/
def canonicalize : Json → Json
  | .null => .null
  | .bool b => .bool b
  | .string s => .string s
  | .int n =>
    if fitsInt n then .int n else canonicalDouble (Double.ofInt n)
  | .double d => canonicalDouble d
  | .array items => .array (canonicalizeItems items)
  | .object fields => .object (Dict.ofList (canonicalizeFields fields)).entries
where
  /-- A double that is finite, else null. -/
  canonicalDouble (d : Double) : Json :=
    if d.isFinite then .double d else .null

/-- The canonical forms of the items. -/
def canonicalizeItems : List Json → List Json
  | [] => []
  | item :: items => item.canonicalize :: canonicalizeItems items

/-- The fields with their values in canonical form. -/
def canonicalizeFields : List (String × Json) → List (String × Json)
  | [] => []
  | (name, value) :: fields => (name, value.canonicalize) :: canonicalizeFields fields

end

/-- A list is canonical when every item is. -/
theorem canonicalItems_iff {items : List Json} :
    CanonicalItems items ↔ ∀ item ∈ items, item.Canonical := by
  induction items with
  | nil => simp [CanonicalItems]
  | cons item items ih => simp [CanonicalItems, ih]

/-- Fields are canonical when every value is. -/
theorem canonicalFields_iff {fields : List (String × Json)} :
    CanonicalFields fields ↔ ∀ field ∈ fields, field.2.Canonical := by
  induction fields with
  | nil => simp [CanonicalFields]
  | cons field fields ih => obtain ⟨name, value⟩ := field; simp [CanonicalFields, ih]

/-- A double becomes a finite one or null. -/
theorem canonical_canonicalDouble (d : Double) : (canonicalize.canonicalDouble d).Canonical := by
  unfold canonicalize.canonicalDouble
  split
  · rename_i h; simpa [Canonical] using h
  · simp [Canonical]

/-- Writing canonical values into a dictionary of canonical values keeps them canonical. -/
theorem canonicalFields_entries_insertMany {fields : List (String × Json)} {d : Dict Json}
    (hd : CanonicalFields d.entries) (h : CanonicalFields fields) :
    CanonicalFields (d.insertMany fields).entries := by
  induction fields generalizing d with
  | nil => exact hd
  | cons field fields ih =>
    rw [canonicalFields_iff] at h
    refine ih (canonicalFields_iff.2 fun e he => ?_)
      (canonicalFields_iff.2 fun e he => h e (by simp [he]))
    rcases Dict.mem_insertEntry he with rfl | he
    · exact h field (by simp)
    · exact canonicalFields_iff.1 hd e he

mutual

/-- The canonical form is canonical. -/
theorem canonical_canonicalize : ∀ j : Json, j.canonicalize.Canonical
  | .null => by simp [canonicalize, Canonical]
  | .bool _ => by simp [canonicalize, Canonical]
  | .string _ => by simp [canonicalize, Canonical]
  | .int n => by
    simp only [canonicalize]
    split
    · rename_i h; simpa [Canonical] using h
    · exact canonical_canonicalDouble _
  | .double d => by simpa only [canonicalize] using canonical_canonicalDouble d
  | .array items => by
    simpa only [canonicalize, Canonical] using canonicalItems_canonicalizeItems items
  | .object fields => by
    simp only [canonicalize, Canonical]
    exact ⟨(Dict.ofList (canonicalizeFields fields)).sorted,
      canonicalFields_entries_insertMany (by simp [Dict.empty, CanonicalFields])
        (canonicalFields_canonicalizeFields fields)⟩

/-- The canonical forms of items are canonical. -/
theorem canonicalItems_canonicalizeItems : ∀ items : List Json,
    CanonicalItems (canonicalizeItems items)
  | [] => by simp [canonicalizeItems, CanonicalItems]
  | item :: items => by
    simp only [canonicalizeItems, CanonicalItems]
    exact ⟨canonical_canonicalize item, canonicalItems_canonicalizeItems items⟩

/-- The canonical forms of fields are canonical. -/
theorem canonicalFields_canonicalizeFields : ∀ fields : List (String × Json),
    CanonicalFields (canonicalizeFields fields)
  | [] => by simp [canonicalizeFields, CanonicalFields]
  | (_, value) :: fields => by
    simp only [canonicalizeFields, CanonicalFields]
    exact ⟨canonical_canonicalize value, canonicalFields_canonicalizeFields fields⟩

end

end Json

/-- A document in canonical form. -/
structure Literal where
  /-- The document. -/
  json : Json
  /-- It is in canonical form. -/
  canonical : json.Canonical

namespace Literal

/-- The canonical form of a document. -/
def ofJson (j : Json) : Literal :=
  ⟨j.canonicalize, j.canonical_canonicalize⟩

instance : Inhabited Literal := ⟨ofJson .null⟩

/-- The literal of a text. -/
def ofString (s : String) : Literal :=
  ⟨.string s, by simp [Json.Canonical]⟩

/-- The text of a literal. -/
def render (l : Literal) : String :=
  l.json.render

end Literal

end Reflex
