import Reflex.Json

/-!
# Reading Records

A record is written as an object with named fields, or as a list of the fields in their declared
order. Fields with a default may be missing, in a list only at its end. In an object unknown
fields are ignored and a known one must not repeat.

The two file formats differ in details: documents read lists of records strictly and settings
files ignore what follows the last field, and the choices of an enumeration may be written as an
object with one field whose value is void. Below a tagged choice every format is read in
the same, buffered way.

## Main definitions

- `Reflex.Json.Reading`: the format that is read.
- `Reflex.Json.Record.ofJson?` and the readers of its fields.
- `Reflex.Json.choice?`: the name of a choice without data.
-/

namespace Reflex.Json

/-- A file format. -/
inductive Format where
  -- Documents.
  | json
  -- Settings files.
  | toml
  deriving DecidableEq, Repr

/-- How a document is read. -/
structure Reading where
  /-- The format that the document comes from. -/
  format : Format := .json
  /-- Whether the document stands below a tagged choice. -/
  buffered : Bool := false
  deriving DecidableEq, Repr

/-- The reading of what stands below a tagged choice. -/
def Reading.below (r : Reading) : Reading :=
  { r with buffered := true }

/-- The fields of a record that are present. -/
structure Record where
  /-- The known fields, each at most once. -/
  fields : List (String × Json)

namespace Record

/-- Whether lists of records must end with the last field. -/
def exactLists (r : Reading) : Bool :=
  r.buffered || r.format == .json

/-- Open a document as a record with the given field names. -/
def ofJson? (names : List String) (r : Reading) : Json → Option Record
  | .object fields =>
    let known := fields.filter fun e => names.contains e.1
    if names.any fun name => 1 < (known.filter fun e => e.1 == name).length then none
    else some ⟨known⟩
  | .array items =>
    if exactLists r && names.length < items.length then none else some ⟨names.zip items⟩
  | _ => none

variable (record : Record)

/-- The document of a field, if the field is present. -/
def field? (name : String) : Option Json :=
  Dict.lookup name record.fields

/-- Read a field that must be present. -/
def required? {α : Type} (name : String) (read : Json → Option α) : Option α :=
  (record.field? name).bind read

/-- Read a field that has a default. -/
def orElse? {α : Type} (name : String) (default : α) (read : Json → Option α) : Option α :=
  match record.field? name with
  | some j => read j
  | none => some default

/-- Read a field that may be missing or null. -/
def optional? {α : Type} (name : String) (read : Json → Option α) : Option (Option α) :=
  match record.field? name with
  | some .null | none => some none
  | some j => (read j).map some

end Record

/-- Read a text. -/
def asString? : Json → Option String
  | .string s => some s
  | _ => none

/-- Read a truth value. -/
def asBool? : Json → Option Bool
  | .bool b => some b
  | _ => none

/-- Read a natural number of 64 bits. -/
def asNatural? : Json → Option Nat
  | .int n => if 0 ≤ n ∧ n < Word.size then some n.toNat else none
  | _ => none

/-- Whether a document is void, as the value of the one field of a choice is. -/
def isVoid (r : Reading) : Json → Bool
  | .null => r.buffered || r.format == .json
  | .object [] => r.buffered || r.format == .toml
  | .array [] => !r.buffered && r.format == .toml
  | _ => false

/-- Read the name of a choice without data. -/
def choice? (r : Reading) : Json → Option String
  | .string s => some s
  | .object [(name, value)] => if isVoid r value then some name else none
  | _ => none

end Reflex.Json
