import Reflex.Property.Validation

/-!
# Property Stores

A store holds the validated values of a set of declared properties. Every accepted write makes
a new snapshot with the next version; a refused write changes nothing. Readers keep the snapshot
they took.

## Main definitions

- `Reflex.PropertyStore.seeded`: the store of the defaults, overlaid with initial raw values.
- `Reflex.PropertyStore.setMany`: several writes as one change.
-/

namespace Reflex

/-- The values of a store at one version. -/
structure Snapshot where
  /-- The number of writes so far. -/
  version : Nat
  /-- The values. -/
  values : Dict Value
  deriving DecidableEq

/-- Declared properties and their current values. -/
structure PropertyStore where
  /-- The declarations by name. -/
  descriptors : Dict Descriptor
  /-- The current values. -/
  snapshot : Snapshot
  deriving DecidableEq

/-- Raw values by name, in the order in which they are written. -/
abbrev RawEntries := List (String × Json)

namespace PropertyStore

/-- The declarations by name; the last one of a name stays. -/
def index (descriptors : List Descriptor) : Dict Descriptor :=
  .ofList (descriptors.map fun d => (d.name, d))

/-- Validate a raw value for a property of a set of declarations. -/
def validateIn (descriptors : Dict Descriptor) (name : String) (raw : Json) :
    Except ValidationError Value :=
  match descriptors.get? name with
  | some d => d.normalize raw
  | none => .error (.unknownProperty name)

/-- Validate raw values one after the other and write each into the values; the first one that
is refused decides. -/
def overlay (descriptors : Dict Descriptor) (values : Dict Value) (entries : RawEntries) :
    Except ValidationError (Dict Value) :=
  entries.foldlM (fun acc e => do
    let value ← validateIn descriptors e.1 e.2
    return acc.insert e.1 value) values

/-- The raw defaults of the declarations, in the order of their names. -/
def rawDefaults (descriptors : Dict Descriptor) : RawEntries :=
  descriptors.entries.filterMap fun e => e.2.default.map fun v => (e.1, v.toRaw)

/-- The store of the defaults overlaid with initial values, at version 0. -/
def seeded (descriptors : List Descriptor) (initial : RawEntries) :
    Except ValidationError PropertyStore := do
  let index := index descriptors
  let defaults ← overlay index .empty (rawDefaults index)
  let values ← overlay index defaults initial
  return { descriptors := index, snapshot := { version := 0, values } }

/-- The store of the defaults. -/
def new (descriptors : List Descriptor) : Except ValidationError PropertyStore :=
  seeded descriptors []

variable (s : PropertyStore)

/-- The declaration of a property. -/
def descriptor? (name : String) : Option Descriptor :=
  s.descriptors.get? name

/-- The current value of a property. -/
def get? (name : String) : Option Value :=
  s.snapshot.values.get? name

/-- Validate a raw value without writing it. -/
def validate (name : String) (raw : Json) : Except ValidationError Value :=
  validateIn s.descriptors name raw

/-- Validate a typed value without writing it. -/
def revalidate (name : String) (value : Value) : Except ValidationError Value :=
  s.validate name value.toRaw

/-- Write several properties as one change, or nothing if one of them is refused. -/
def setMany (changes : RawEntries) : Except ValidationError PropertyStore := do
  let values ← overlay s.descriptors s.snapshot.values changes
  return { s with snapshot := { version := s.snapshot.version + 1, values } }

/-- Write one property. -/
def set (name : String) (raw : Json) : Except ValidationError PropertyStore :=
  s.setMany [(name, raw)]

end PropertyStore

end Reflex
