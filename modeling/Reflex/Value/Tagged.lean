import Reflex.Event

/-!
# Tagged Values

A tagged value is a document that names the type of the value: an object with one field, whose
name is the type. Unlike the recorded form it keeps the type of every value, and doubles that are
not finite.

## Main definitions

- `Reflex.Value.toTagged`, `Reflex.Value.ofTagged`: the document and its reader.
-/

namespace Reflex

/-- Why a document is no tagged value: it names no type, or the content does not fit to the
type. -/
inductive TagError where
  -- No type is named.
  | untagged
  -- The content does not fit to the named type.
  | content (tag : String)
  deriving DecidableEq, Repr

/-- An object with its fields in order. -/
def Json.ofFields (fields : List (String × Json)) : Json :=
  .object (Dict.ofList fields).entries

/-- The content of a document, or null. -/
def Json.ofOption {α : Type} (f : α → Json) : Option α → Json
  | some a => f a
  | none => .null

namespace Value

/-- The name of the type of a value. -/
def tag : Value → String
  | .bool _ => "bool"
  | .int _ => "int"
  | .double _ => "double"
  | .time _ => "time"
  | .string _ => "string"

/-- The content of a tagged value. Doubles and times are texts. -/
def content : Value → Json
  | .bool b => .bool b
  | .int n => .int n.toInt
  | .double d => .string (Decimal.Layout.plain.text d)
  | .time t => .string t.fullText
  | .string s => .string s

/-- The tagged value. -/
def toTagged (v : Value) : Json :=
  .object [(v.tag, v.content)]

/-- Read the content that belongs to a type. -/
def ofContent? (tag : String) (j : Json) : Option Value :=
  match tag, j with
  | "bool", .bool b => some (.bool b)
  | "int", .int n => (int64OfInt? n).map .int
  | "double", .string s => (Decimal.readDouble? s).map .double
  | "time", .string s => (TimeOfDay.readExact? s).map .time
  | "string", .string s => some (.string s)
  | _, _ => none

/-- The names of the types. -/
def tags : List String := ["bool", "int", "double", "time", "string"]

/-- Read a tagged value. -/
def ofTagged : Json → Except TagError Value
  | .object [(tag, j)] =>
    if tags.contains tag then
      match ofContent? tag j with
      | some v => .ok v
      | none => .error (.content tag)
    else .error .untagged
  | _ => .error .untagged

end Value

/-- The tagged values of a dictionary. -/
def Dict.toTagged (values : Dict Value) : Json :=
  .object (values.map Value.toTagged).entries

/-- The kind and the tagged fields of an event. -/
def Event.toTagged (e : Event) : Json :=
  .ofFields [("kind", .string e.kind), ("fields", e.fields.toTagged)]

end Reflex
