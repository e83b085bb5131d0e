import Reflex.Catalog
import Reflex.Json.Field
import Reflex.Value.Tagged

/-!
# Documents of Catalogs

Catalogs that are written as documents: an object with a list of actions and a list of events,
which are declared in their order.

## Main definitions

- `Reflex.Descriptor.ofDocument`, `Reflex.ActionSchema.ofDocument`,
  `Reflex.EventSchema.ofDocument`, `Reflex.Catalog.ofDocument`.
-/

namespace Reflex

/-- Why a document is no declaration. -/
inductive DocumentError where
  -- A field is missing or has the wrong content.
  | field (name : String)
  -- A type or a refinement is not known.
  | unknownName
  -- The type does not have the refinement.
  | unsupported (e : UnsupportedType)
  deriving DecidableEq, Repr

namespace DocumentError

/-- A reading of a field as part of a declaration. -/
def ofField {α : Type} : Except String α → Except DocumentError α
  | .ok a => .ok a
  | .error name => .error (.field name)

instance : MonadLift (Except String) (Except DocumentError) := ⟨ofField⟩

/-- A reading of a name as part of a declaration. -/
def ofName {α : Type} : Option α → Except DocumentError α
  | some a => .ok a
  | none => .error .unknownName

/-- A tagged value as part of a declaration. -/
def ofTagged : Except TagError Value → Except DocumentError Value
  | .ok v => .ok v
  | .error .untagged => .error (.field "typed value")
  | .error (.content tag) => .error (.field tag)

end DocumentError

open DocumentError

/-- Read a type. -/
def PropertyType.ofDocument (j : Json) : Except DocumentError PropertyType :=
  ofName ((Json.choice? {} j).bind ofName?)

/-- Read a refinement. -/
def PropertySubtype.ofDocument (j : Json) : Except DocumentError PropertySubtype :=
  ofName ((Json.choice? {} j).bind ofName?)

/-- Read a choice: a list of its label and its value. -/
def Choice.ofJson? : Json → Option Choice
  | .array [.string label, .string value] => some { label, value }
  | _ => none

/-- Read a range: a list of its least and its greatest number. -/
def readRange? (j : Json) : Option (Double × Double) := do
  let (min, max) ← Json.asPair? j
  return (← Json.asDouble? min, ← Json.asDouble? max)

/-- Apply a change for a detail that may be missing. -/
def Descriptor.withDetail {α : Type} (d : Descriptor) (detail : Option α)
    (change : Descriptor → α → Descriptor) : Descriptor :=
  match detail with
  | some a => change d a
  | none => d

/-- Read the declaration of a property. -/
def Descriptor.ofDocument (j : Json) : Except DocumentError Descriptor := do
  let name ← j.require "name" Json.asString?
  let type ← PropertyType.ofDocument (← j.require "type" some)
  let subtype ← match ← j.optional "subtype" some with
    | some subtype => PropertySubtype.ofDocument subtype
    | none => .ok .none
  let d ← match describe name type subtype with
    | .ok d => .ok d
    | .error e => .error (.unsupported e)
  let d := d.withDetail (← j.optional "description" Json.asString?) withDescription
  let d := d.withDetail (← j.optional "range" readRange?) fun d r => d.withRange r.1 r.2
  let d := d.withDetail (← j.optional "min" Json.asDouble?) withMin
  let d := d.withDetail (← j.optional "choices" (Json.asListOf? Choice.ofJson?)) withChoices
  let d := if ← j.getOr "non_empty" false Json.asBool? then d.withNonEmpty else d
  let d := if ← j.getOr "required" false Json.asBool? then d.asRequired else d
  match ← j.optional "default" some with
  | some value => return d.withDefault (← DocumentError.ofTagged (Value.ofTagged value))
  | none => return d

/-- Read the declarations in a field. -/
def readDeclarations {α : Type} (j : Json) (name : String)
    (read : Json → Except DocumentError α) : Except DocumentError (List α) := do
  (← j.getOr name [] Json.asItems?).mapM read

/-- Read the declaration of an action type. -/
def ActionSchema.ofDocument (j : Json) : Except DocumentError ActionSchema := do
  let type ← j.require "type" Json.asString?
  let name ← j.getOr "name" "" Json.asString?
  let description ← j.getOr "description" "" Json.asString?
  let properties ← readDeclarations j "properties" Descriptor.ofDocument
  let summary ← j.optional "summary" Json.asString?
  return { type, name, description, properties, summary }

/-- Read the declaration of an event kind. -/
def EventSchema.ofDocument (j : Json) : Except DocumentError EventSchema := do
  let kind ← j.require "kind" Json.asString?
  let fields ← readDeclarations j "fields" Descriptor.ofDocument
  return { kind, fields }

/-- Read a catalog. -/
def Catalog.ofDocument (j : Json) : Except DocumentError Catalog := do
  let actions ← readDeclarations j "actions" ActionSchema.ofDocument
  let events ← readDeclarations j "events" EventSchema.ofDocument
  return events.foldl registerEvent (actions.foldl registerAction {})

end Reflex
