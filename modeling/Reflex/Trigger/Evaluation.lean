import Reflex.Trigger.Condition

/-!
# Evaluating Conditions

Evaluation is three-valued. A comparison with a field that the event does not carry, or with a
value of another kind, is unknown, and what is unknown never counts as a match. Lists of
conditions are read from the left and decided as soon as one of them decides.

## Main definitions

- `Reflex.Truth`: the three truth values.
- `Reflex.Condition.evaluate`, `Reflex.Condition.isMatch`.
-/

namespace Reflex

/-- The result of evaluating a condition. -/
inductive Truth where
  -- The condition does not hold.
  | false
  -- The event lacks the data to decide.
  | unknown
  -- The condition holds.
  | true
  deriving DecidableEq, Repr

namespace Truth

/-- The truth of a decided question. -/
def ofBool (b : Bool) : Truth :=
  if b then .true else .false

/-- The truth of the negation. -/
def negate : Truth → Truth
  | .true => .false
  | .false => .true
  | .unknown => .unknown

/-- The name of a truth value. -/
def name : Truth → String
  | .true => "true"
  | .false => "false"
  | .unknown => "unknown"

end Truth

namespace CompareOp

/-- Whether an operator accepts an order of the field and the literal. -/
def accepts (op : CompareOp) (order : Ordering) : Bool :=
  match op with
  | .eq => order == .eq
  | .ne => order != .eq
  | .lt => order == .lt
  | .le => order != .gt
  | .gt => order == .gt
  | .ge => order != .lt
  | .within | .contains => false

end CompareOp

/-- Whether a text stands somewhere in another. -/
def containsText (needle : List Char) : List Char → Bool
  | [] => needle.isEmpty
  | c :: rest => needle.isPrefixOf (c :: rest) || containsText needle rest

namespace Operand

/-- Whether a value equals one of a list. It is unknown when it can be compared with none of
them. -/
def isOneOf (actual : Value) (values : List Value) : Truth :=
  let orders := values.filterMap actual.compare?
  if orders.contains .eq then .true else if orders.isEmpty then .unknown else .false

/-- The truth of a comparison of a value with an operand. -/
def compareWith (actual : Value) (op : CompareOp) : Operand → Truth
  | .list values =>
    match op with
    | .within => isOneOf actual values
    | _ => .unknown
  | .single expected =>
    match op, expected, actual.asText? with
    | .contains, .string needle, some text =>
      Truth.ofBool (containsText needle.toList text.toList)
    | .contains, .string _, none => .unknown
    | _, _, _ =>
      match actual.compare? expected with
      | some order => Truth.ofBool (op.accepts order)
      | none => .unknown

/-- Every operator but `contains` asks for the order of a value and the one it is compared with. -/
theorem compareWith_single {op : CompareOp} (htext : op ≠ .contains) (actual expected : Value) :
    compareWith actual op (.single expected) =
      (actual.compare? expected).elim .unknown fun order => Truth.ofBool (op.accepts order) := by
  cases op with
  | contains => exact absurd rfl htext
  | _ => cases h : actual.compare? expected <;> simp [compareWith, h]

end Operand

namespace Condition

mutual

/-- The truth of a condition on an event. -/
def evaluate (e : Event) : Condition → Truth
  | .always => .true
  | .eventKind kind => Truth.ofBool (e.kind == kind)
  | .exists field => Truth.ofBool (e.field? field).isSome
  | .compare field op operand =>
    match e.field? field with
    | some actual => operand.compareWith actual op
    | none => .unknown
  | .all conditions => evaluateAll e .true conditions
  | .any conditions => evaluateAny e .false conditions
  | .not condition => (condition.evaluate e).negate

/-- Whether all conditions hold, given the truth of those before them: the first one that does
not hold decides. -/
def evaluateAll (e : Event) (sofar : Truth) : List Condition → Truth
  | [] => sofar
  | c :: cs =>
    match c.evaluate e with
    | .false => .false
    | .unknown => evaluateAll e .unknown cs
    | .true => evaluateAll e sofar cs

/-- Whether some condition holds, given the truth of those before them: the first one that
holds decides. -/
def evaluateAny (e : Event) (sofar : Truth) : List Condition → Truth
  | [] => sofar
  | c :: cs =>
    match c.evaluate e with
    | .true => .true
    | .unknown => evaluateAny e .unknown cs
    | .false => evaluateAny e sofar cs

end

/-- Whether the event satisfies the condition. -/
def isMatch (c : Condition) (e : Event) : Bool :=
  c.evaluate e == .true

end Condition

end Reflex
