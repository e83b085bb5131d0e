import Reflex.Identifier
import Reflex.Number.Decimal

/-!
# Reports of Instances

An instance is one run of a rule. When it ends, a report tells how every action of the rule
ended.
-/

namespace Reflex

/-- How far an instance is. -/
inductive InstanceState where
  -- It has not started.
  | pending
  -- Its actions run.
  | running
  -- Every action completed.
  | completed
  -- An action failed.
  | failed
  -- It was cancelled.
  | cancelled
  deriving DecidableEq, Repr

/-- The name of a state. -/
def InstanceState.name : InstanceState → String
  | .pending => "pending"
  | .running => "running"
  | .completed => "completed"
  | .failed => "failed"
  | .cancelled => "cancelled"

/-- Whether an instance in the state has ended. -/
def InstanceState.isTerminal : InstanceState → Bool
  | .pending | .running => false
  | .completed | .failed | .cancelled => true

/-- How an action ended. -/
inductive ActionState where
  -- Well.
  | completed
  -- With an error.
  | failed
  -- It was cancelled.
  | cancelled
  -- It was not invoked, because an earlier action did not complete.
  | skipped
  deriving DecidableEq, Repr

/-- The name of a state. -/
def ActionState.name : ActionState → String
  | .completed => "completed"
  | .failed => "failed"
  | .cancelled => "cancelled"
  | .skipped => "skipped"

/-- What became of one action of an instance. -/
structure ActionOutcome where
  /-- The position of the action in its rule. -/
  index : Nat
  /-- The action type. -/
  type : String
  /-- How it ended. -/
  state : ActionState
  /-- How often it was invoked. -/
  attempts : Nat
  /-- The text of its error. -/
  error : Option String := none
  deriving DecidableEq, Repr

/-- The report of an instance that has ended. -/
structure Report where
  /-- The number of the instance. -/
  id : Nat
  /-- The identifier of its rule. -/
  rule : Identifier
  /-- The name of its rule. -/
  ruleName : String
  /-- How it ended. -/
  state : InstanceState
  /-- What became of its actions, in their order. -/
  outcomes : List ActionOutcome
  /-- Whether it started at all. -/
  started : Bool
  deriving DecidableEq

/-- The action that ended the instance early. -/
def Report.stoppedAt? (r : Report) : Option ActionOutcome :=
  r.outcomes.find? fun o => o.state == .failed || o.state == .cancelled

end Reflex
