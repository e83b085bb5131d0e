import Reflex.Trigger

/-!
# Conditions

A condition is a trigger expression whose literals are type-checked values. A literal is checked
against the declaration of its field where an enclosing `all` fixes the event kind and the kind
declares the field; any other literal keeps the kind that its document has.

## Main definitions

- `Reflex.Condition`: the checked expressions.
- `Reflex.TriggerError`: why an expression is refused.
- `Reflex.Trigger.compile`: the condition of an expression over a catalog.
- `Reflex.Condition.fields`: the event fields that a condition reads.
-/

namespace Reflex

/-- What a field is compared with. -/
inductive Operand where
  -- One value.
  | single (value : Value)
  -- A list of values.
  | list (values : List Value)
  deriving DecidableEq

/-- A condition over an event whose literals are checked. -/
inductive Condition where
  -- Every event.
  | always
  -- The events of a kind.
  | eventKind (kind : String)
  -- The events that carry a field.
  | exists (field : String)
  -- A comparison of a field with values.
  | compare (field : String) (op : CompareOp) (operand : Operand)
  -- Every condition holds.
  | all (conditions : List Condition)
  -- Some condition holds.
  | any (conditions : List Condition)
  -- The condition does not hold.
  | not (condition : Condition)
  deriving Inhabited

/-- Why a trigger expression is refused. -/
inductive TriggerError where
  -- The operator cannot have a literal of this kind.
  | operatorMismatch (field : String) (op : CompareOp) (literal : String)
  -- The literal does not satisfy the declaration of its field.
  | invalidLiteral (field : String) (cause : ValidationError)
  -- The literal is null, a list or an object.
  | unsupportedLiteral (field : String)
  -- A field has no name.
  | emptyField
  deriving DecidableEq

/-- The text of the error. -/
def TriggerError.message : TriggerError → String
  | .operatorMismatch field op literal =>
    "operator `" ++ op.name ++ "` cannot compare field `" ++ field ++ "` with a " ++ literal ++
      " literal"
  | .invalidLiteral field cause =>
    "literal for field `" ++ field ++ "` is invalid: " ++ cause.message
  | .unsupportedLiteral field =>
    "literal for field `" ++ field ++ "` has an unsupported shape"
  | .emptyField => "field name must not be empty"

namespace Trigger

/-- The value of an undeclared literal. -/
def plainScalar (field : String) : Json → Except TriggerError Value
  | .bool b => .ok (.bool b)
  | .int n =>
    match int64OfInt? n with
    | some i => .ok (.int i)
    | none => .ok (.double (Double.ofInt n))
  | .double d => .ok (.double d)
  | .string s => .ok (.string s)
  | _ => .error (.unsupportedLiteral field)

/-- The value of a literal, through the declaration of its field if there is one. -/
def scalar (field : String) (declared : Option Descriptor) (raw : Json) :
    Except TriggerError Value :=
  match declared with
  | some d =>
    match d.normalize raw with
    | .ok v => .ok v
    | .error e => .error (.invalidLiteral field e)
  | none => plainScalar field raw

/-- What an operator compares a field with. A list is needed for `within` and a text for
`contains`, which takes it as it is; truth values have no order. -/
def compileOperand (field : String) (op : CompareOp) (declared : Option Descriptor)
    (raw : Json) : Except TriggerError Operand :=
  match op with
  | .within =>
    match raw with
    | .array items => return .list (← items.mapM (scalar field declared))
    | _ => .error (.operatorMismatch field op raw.kind)
  | .contains =>
    match raw with
    | .string s => .ok (.single (.string s))
    | _ => .error (.operatorMismatch field op raw.kind)
  | _ => do
    match ← scalar field declared raw with
    | .bool b =>
      if op.isOrdering then .error (.operatorMismatch field op "bool")
      else return .single (.bool b)
    | v => return .single v

/-- The event kind that a list of conditions fixes: that of the first one that names a kind. -/
def fixedKind? (conditions : List Trigger) : Option String :=
  conditions.findSome? fun
    | .eventKind kind => some kind
    | _ => none

mutual

/-- The condition of an expression below a fixed event kind, if one is fixed. The first
expression that is refused, in reading order, decides. -/
def compileBelow (catalog : Catalog) (kind : Option String) :
    Trigger → Except TriggerError Condition
  | .always => .ok .always
  | .eventKind k => .ok (.eventKind k)
  | .exists field => if field = "" then .error .emptyField else .ok (.exists field)
  | .compare field op value =>
    if field = "" then .error .emptyField
    else do
      let operand ← compileOperand field op (catalog.declared? kind field) value.json
      return .compare field op operand
  | .all conditions => do
    let conditions ← compileList catalog ((fixedKind? conditions).or kind) conditions
    return .all conditions
  | .any conditions => do
    let conditions ← compileList catalog kind conditions
    return .any conditions
  | .not condition => do
    let condition ← compileBelow catalog kind condition
    return .not condition

/-- The conditions of a list of expressions. -/
def compileList (catalog : Catalog) (kind : Option String) :
    List Trigger → Except TriggerError (List Condition)
  | [] => .ok []
  | t :: ts => do
    let c ← compileBelow catalog kind t
    let cs ← compileList catalog kind ts
    return c :: cs

end

/-- The condition of an expression over a catalog. -/
def compile (catalog : Catalog) (t : Trigger) : Except TriggerError Condition :=
  compileBelow catalog none t

end Trigger

namespace Condition

mutual

/-- The event fields that a condition reads, in reading order. -/
def fields : Condition → List String
  | .exists field | .compare field _ _ => [field]
  | .all conditions | .any conditions => fieldsList conditions
  | .not condition => condition.fields
  | .always | .eventKind _ => []

/-- The event fields that a list of conditions reads. -/
def fieldsList : List Condition → List String
  | [] => []
  | c :: cs => c.fields ++ fieldsList cs

end

end Condition

end Reflex
