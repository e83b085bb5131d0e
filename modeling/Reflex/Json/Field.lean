import Reflex.Json.Record

/-!
# Fields of Documents

Readers of the fields of an object that say which field is missing or has the wrong content. A
field that may be missing may also be null.
-/

namespace Reflex.Json

variable {α : Type}

/-- The document of a field, if the document is an object with the field. -/
def field? (name : String) : Json → Option Json
  | .object fields => Dict.lookup name fields
  | _ => none

/-- What was read from a field, or else the name of the field. -/
def orName (name : String) : Option α → Except String α
  | some a => .ok a
  | none => .error name

variable (j : Json)

/-- Read a field that must be present. -/
def require (name : String) (read : Json → Option α) : Except String α :=
  orName name ((j.field? name).bind read)

/-- Read a field that may be missing. -/
def optional (name : String) (read : Json → Option α) : Except String (Option α) :=
  match j.field? name with
  | some .null | none => .ok none
  | some content => (orName name (read content)).map some

/-- Read a field that has a default. -/
def getOr (name : String) (default : α) (read : Json → Option α) : Except String α :=
  (j.optional name read).map (·.getD default)

/-- Read a list. -/
def asItems? : Json → Option (List Json)
  | .array items => some items
  | _ => none

/-- Read a list of two items. -/
def asPair? : Json → Option (Json × Json)
  | .array [a, b] => some (a, b)
  | _ => none

/-- Read a number. -/
def asDouble? : Json → Option Double
  | .int n => some (Double.ofInt n)
  | .double d => some d
  | _ => none

/-- Read a list of which every item is read in the same way. -/
def asListOf? (read : Json → Option α) (j : Json) : Option (List α) :=
  (asItems? j).bind fun items => items.mapM read

end Reflex.Json
