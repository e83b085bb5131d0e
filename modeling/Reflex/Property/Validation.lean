import Reflex.Property

/-!
# Validation

Raw values are type-checked and normalised against a descriptor. Raw values come from rule
files and editors, so a number may be given as text, and a time as an object of hour and
minute.

## Main definitions

- `Reflex.ValidationError`: what can be wrong, and `Reflex.ValidationError.message`.
- `Reflex.Descriptor.normalize`: the value of a raw document.
- `Reflex.Descriptor.revalidate`: the value of a typed value, through its raw form.
-/

namespace Reflex

/-- A value or a definition that breaks a declaration. -/
inductive ValidationError where
  -- The name of a rule is blank.
  | emptyName
  -- A rule has no action.
  | noActions
  -- The raw value has the wrong shape.
  | typeMismatch (property : String) (expected : PropertyType) (found : String)
  -- The number is outside the declared range.
  | outOfRange (property : String) (value : Double) (min max : Option Double)
  -- The number is infinite or none.
  | notFinite (property : String)
  -- The text is no declared choice.
  | notAChoice (property : String) (value : String)
  -- The text is blank.
  | empty (property : String)
  -- The raw value is no time of day.
  | invalidTime (property : String) (value : String)
  -- The property is not declared.
  | unknownProperty (property : String)
  -- A required property has no value.
  | missingProperty (property : String)
  deriving DecidableEq

/-- The text of the error. -/
def ValidationError.message : ValidationError → String
  | .emptyName => "name must not be empty"
  | .noActions => "a rule needs at least one action"
  | .typeMismatch property expected found =>
    "property `" ++ property ++ "` expects a " ++ expected.name ++ " value, got " ++ found
  | .outOfRange property value _ _ =>
    "property `" ++ property ++ "` value " ++ Decimal.Layout.plain.text value ++
      " is outside the allowed range"
  | .notFinite property => "property `" ++ property ++ "` must be a finite number"
  | .notAChoice property value =>
    "property `" ++ property ++ "` value `" ++ value ++ "` is not one of the declared choices"
  | .empty property => "property `" ++ property ++ "` must not be empty"
  | .invalidTime property value =>
    "property `" ++ property ++ "` value `" ++ value ++ "` is not a valid time of day"
  | .unknownProperty property => "unknown property `" ++ property ++ "`"
  | .missingProperty property => "missing required property `" ++ property ++ "`"

namespace Descriptor

variable (d : Descriptor)

/-- The error of a raw value of the wrong shape. -/
def mismatch (raw : Json) : ValidationError :=
  .typeMismatch d.name d.type raw.kind

/-- Refuse a number outside the declared range. -/
def checkRange (x : Double) : Except ValidationError Unit :=
  let below := d.constraints.min.any fun least => x.lt least
  let above := d.constraints.max.any fun most => most.lt x
  if below || above then
    .error (.outOfRange d.name x d.constraints.min d.constraints.max)
  else .ok ()

/-- A text that satisfies the refinement. -/
def normalizeText (s : String) : Except ValidationError Value :=
  match d.subtype with
  | .choice =>
    if d.constraints.allowsChoice s then .ok (.string s) else .error (.notAChoice d.name s)
  | .application => if Text.isBlank s then .error (.empty d.name) else .ok (.string s)
  | .none =>
    if d.constraints.nonEmpty && Text.isBlank s then .error (.empty d.name) else .ok (.string s)

/-- The integer of 64 bits that a raw value denotes exactly. -/
def rawInt? : Json → Option Int64
  | .int n => int64OfInt? n
  | .double x => x.toInt?.bind int64OfInt?
  | .string s => (Decimal.readInt64? (Text.trim s.toList)).bind int64OfInt?
  | _ => none

/-- An integer in the declared range. -/
def normalizeInt (raw : Json) : Except ValidationError Value :=
  match rawInt? raw with
  | some n => do
    d.checkRange (Double.ofInt n.toInt)
    return .int n
  | none => .error (d.mismatch raw)

/-- The double that a raw value denotes. -/
def rawDouble? : Json → Option Double
  | .int n => some (Double.ofInt n)
  | .double x => some x
  | .string s => Decimal.readDouble? (Text.trimmed s)
  | _ => none

/-- A finite double in the declared range. -/
def normalizeDouble (raw : Json) : Except ValidationError Value :=
  match rawDouble? raw with
  | some x =>
    if x.isFinite then do
      d.checkRange x
      return .double x
    else .error (.notFinite d.name)
  | none => .error (d.mismatch raw)

/-- The truth value that a raw value denotes. -/
def rawBool? : Json → Option Bool
  | .bool b => some b
  | .string s => if s = "true" then some true else if s = "false" then some false else none
  | _ => none

/-- A truth value. -/
def normalizeBool (raw : Json) : Except ValidationError Value :=
  match rawBool? raw with
  | some b => .ok (.bool b)
  | none => .error (d.mismatch raw)

/-- The natural number of a field of an object. -/
def naturalField? (fields : List (String × Json)) (name : String) : Option Nat :=
  match Dict.lookup name fields with
  | some (.int n) => if 0 ≤ n then some n.toNat else none
  | _ => none

/-- The time of an object of hour and minute. -/
def clockField? (fields : List (String × Json)) : Option TimeOfDay := do
  TimeOfDay.ofClock? (← naturalField? fields "hour") (← naturalField? fields "minute") 0 0

/-- A time of day, given as text or as an object of hour and minute. -/
def normalizeTime (raw : Json) : Except ValidationError Value :=
  let checked : Option TimeOfDay → Except ValidationError Value
    | some t => .ok (.time t)
    | none => .error (.invalidTime d.name raw.render)
  match raw with
  | .string s => checked (TimeOfDay.read? s)
  | .object fields => checked (clockField? fields)
  | _ => .error (d.mismatch raw)

/-- Type-check and normalise a raw value. -/
def normalize (raw : Json) : Except ValidationError Value :=
  match d.type with
  | .string =>
    match raw with
    | .string s => d.normalizeText s
    | _ => .error (d.mismatch raw)
  | .int => d.normalizeInt raw
  | .double => d.normalizeDouble raw
  | .bool => d.normalizeBool raw
  | .time => d.normalizeTime raw

/-- Validate a value that is typed already, such as an event field, through its raw form. -/
def revalidate (v : Value) : Except ValidationError Value :=
  d.normalize v.toRaw

end Descriptor

end Reflex
