import Reflex.Value

/-!
# Properties

A property descriptor declares a named parameter of an action or a field of an event: its type,
a refinement of the type, constraints, whether it is required, and its default.

## Main definitions

- `Reflex.PropertyType`, `Reflex.PropertySubtype`: types and their refinements.
- `Reflex.Descriptor`, `Reflex.Descriptor.describe`: declarations; only supported pairs of a
  type and a refinement can be declared.
-/

namespace Reflex

/-- The type of a property. -/
inductive PropertyType where
  -- Text.
  | string
  -- Integers of 64 bits.
  | int
  -- Finite doubles.
  | double
  -- Truth values.
  | bool
  -- Times of day.
  | time
  deriving DecidableEq, Repr

/-- The refinement of a type. -/
inductive PropertySubtype where
  -- No refinement.
  | none
  -- One of the declared choices.
  | choice
  -- The name of an application.
  | application
  deriving DecidableEq, Repr

/-- The name of a type. -/
def PropertyType.name : PropertyType → String
  | .string => "string"
  | .int => "int"
  | .double => "double"
  | .bool => "bool"
  | .time => "time"

/-- The type of a name. -/
def PropertyType.ofName? : String → Option PropertyType
  | "string" => some .string
  | "int" => some .int
  | "double" => some .double
  | "bool" => some .bool
  | "time" => some .time
  | _ => Option.none

/-- The name of a refinement. -/
def PropertySubtype.name : PropertySubtype → String
  | .none => "none"
  | .choice => "choice"
  | .application => "application"

/-- The refinement of a name. -/
def PropertySubtype.ofName? : String → Option PropertySubtype
  | "none" => some .none
  | "choice" => some .choice
  | "application" => some .application
  | _ => Option.none

/-- Whether a type has a refinement: only texts are refined. -/
def PropertyType.supports : PropertyType → PropertySubtype → Bool
  | .string, _ => true
  | _, .none => true
  | _, _ => false

/-- A pair of a type and a refinement that the type does not have. -/
structure UnsupportedType where
  /-- The type. -/
  type : PropertyType
  /-- The refinement. -/
  subtype : PropertySubtype
  deriving DecidableEq, Repr

/-- The text of the error. -/
def UnsupportedType.message (e : UnsupportedType) : String :=
  "no property type registered for " ++ e.type.name ++ "/" ++ e.subtype.name

/-- A choice of a property, as it is shown and as it is stored. -/
structure Choice where
  /-- The text shown. -/
  label : String
  /-- The value stored. -/
  value : String
  deriving DecidableEq, Repr

/-- What a value must satisfy beyond its type. -/
structure Constraints where
  /-- The least number allowed. -/
  min : Option Double := none
  /-- The greatest number allowed. -/
  max : Option Double := none
  /-- The choices. -/
  choices : List Choice := []
  /-- Whether a text must hold something that is not blank. -/
  nonEmpty : Bool := false
  deriving DecidableEq

/-- Whether a text is the value of a choice. -/
def Constraints.allowsChoice (c : Constraints) (s : String) : Bool :=
  c.choices.any (·.value == s)

/-- The declaration of a property. -/
structure Descriptor where
  /-- The name, unique within its schema. -/
  name : String
  /-- What the property is for. -/
  description : String := ""
  /-- The type. -/
  type : PropertyType
  /-- The refinement of the type. -/
  subtype : PropertySubtype := .none
  /-- The constraints. -/
  constraints : Constraints := {}
  /-- Whether a value is needed. -/
  required : Bool := false
  /-- The value used when none is given. -/
  default : Option Value := none
  deriving DecidableEq

namespace Descriptor

/-- Declare a property of a supported type. -/
def describe (name : String) (type : PropertyType) (subtype : PropertySubtype) :
    Except UnsupportedType Descriptor :=
  if type.supports subtype then .ok { name, type, subtype } else .error { type, subtype }

/-- Bound numbers on both sides. -/
def withRange (d : Descriptor) (min max : Double) : Descriptor :=
  { d with constraints := { d.constraints with min := some min, max := some max } }

/-- Bound numbers from below. -/
def withMin (d : Descriptor) (min : Double) : Descriptor :=
  { d with constraints := { d.constraints with min := some min } }

/-- Declare the choices. -/
def withChoices (d : Descriptor) (choices : List Choice) : Descriptor :=
  { d with constraints := { d.constraints with choices } }

/-- Refuse blank texts. -/
def withNonEmpty (d : Descriptor) : Descriptor :=
  { d with constraints := { d.constraints with nonEmpty := true } }

/-- Say what the property is for. -/
def withDescription (d : Descriptor) (description : String) : Descriptor :=
  { d with description }

/-- Ask for a value. -/
def asRequired (d : Descriptor) : Descriptor :=
  { d with required := true }

/-- Set the default. -/
def withDefault (d : Descriptor) (value : Value) : Descriptor :=
  { d with default := some value }

end Descriptor

end Reflex
