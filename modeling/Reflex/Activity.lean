import Reflex.ActionError
import Reflex.Duration
import Reflex.Failure
import Reflex.Event

/-!
# Activities

An activity is what an invoked action does, step by step, until it ends. It runs up to the next
pause, and goes on when the pause is over. An activity that is asked to stop notices that only at
the steps made for it.

## Main definitions

- `Reflex.Invocation`: what an action is invoked with.
- `Reflex.Activity`: the steps.
- `Reflex.Activity.advance`: run up to the next pause or to the end.
-/

namespace Reflex

/-- What an action is invoked with. -/
structure Invocation where
  /-- The identifier of the rule. -/
  rule : Identifier
  /-- The position of the action in its rule. -/
  index : Nat
  /-- How often the action was invoked for its instance, this time included. -/
  attempt : Nat
  /-- The action type. -/
  type : String
  /-- The parameters. -/
  parameters : Dict Value
  /-- The event that triggered the rule. -/
  event : Event
  deriving DecidableEq

/-- A parameter that the action cannot run without. -/
def Invocation.require (call : Invocation) (name : String) : Except ActionError Value :=
  match call.parameters.get? name with
  | some value => .ok value
  | none => .error (.invalidParameter (.missingProperty name))

/-- How important a log entry is. -/
inductive LogLevel where
  -- For those who look for an error.
  | debug
  -- For everyone.
  | info
  -- Something may be wrong.
  | warn
  -- Something is wrong.
  | error
  deriving DecidableEq, Repr

/-- The name of a level. -/
def LogLevel.name : LogLevel → String
  | .debug => "debug"
  | .info => "info"
  | .warn => "warn"
  | .error => "error"

/-- The level of a name; other names mean the general level. -/
def LogLevel.ofName (name : String) : LogLevel :=
  if name = "debug" then .debug
  else if name = "warn" then .warn
  else if name = "error" then .error
  else .info

/-- What an action does. -/
inductive Activity where
  -- End.
  | finish (result : InvocationResult)
  -- End as cancelled if asked to stop.
  | check (next : Activity)
  -- End well unless asked to stop.
  | ifAsked (next : Activity)
  -- Wait until asked to stop.
  | awaitAsked (next : Activity)
  -- Pause for a number of nanoseconds; end as cancelled if asked to stop before.
  | sleep (nanos : Nat) (next : Activity)
  -- The pause until a time in milliseconds.
  | sleepUntil (time : Nat) (next : Activity)
  -- Work for a number of milliseconds without noticing anything.
  | work (ms : Nat) (next : Activity)
  -- The work until a time in milliseconds.
  | workUntil (time : Nat) (next : Activity)
  -- Write a log entry.
  | write (level : LogLevel) (message : String) (next : Activity)
  -- Publish an event on behalf of an action type; end with its failure if that fails.
  | publish (type : String) (event : Event) (next : Activity)
  deriving DecidableEq

/-- What an activity leaves behind. -/
inductive Trace where
  -- A log entry.
  | written (level : LogLevel) (message : String)
  -- A published event.
  | published (event : Event)
  deriving DecidableEq

/-- Where an activity stands after it ran. -/
inductive Progress where
  -- It has ended.
  | ended (result : InvocationResult)
  -- It waits until a time, or until it is asked to stop if there is none.
  | waiting (rest : Activity) (wake : Option Nat)
  deriving DecidableEq

namespace Activity

/-- What an activity meets when it runs. -/
structure Situation where
  /-- The time in milliseconds. -/
  now : Nat
  /-- Whether it is asked to stop. -/
  asked : Bool
  /-- Why an event cannot be published, if it cannot. -/
  refusal : Event → Option Failure := fun _ => none

/-- Put something in front of what an activity leaves behind. -/
def leaving (trace : Trace) (r : Progress × List Trace) : Progress × List Trace :=
  (r.1, trace :: r.2)

/-- Run up to the next pause or to the end. -/
def advance (s : Situation) : Activity → Progress × List Trace
  | .finish result => (.ended result, [])
  | .check next => if s.asked then (.ended (.error .cancelled), []) else advance s next
  | .ifAsked next => if s.asked then advance s next else (.ended .completed, [])
  | .awaitAsked next =>
    if s.asked then advance s next else (.waiting (.awaitAsked next) none, [])
  | .sleep nanos next =>
    let time := s.now + Duration.pauseMillis nanos
    if s.asked then (.ended (.error .cancelled), [])
    else if time ≤ s.now then advance s next
    else (.waiting (.sleepUntil time next) (some time), [])
  | .sleepUntil time next =>
    if s.asked then (.ended (.error .cancelled), [])
    else if time ≤ s.now then advance s next
    else (.waiting (.sleepUntil time next) (some time), [])
  | .work ms next =>
    if ms = 0 then advance s next
    else (.waiting (.workUntil (s.now + ms) next) (some (s.now + ms)), [])
  | .workUntil time next =>
    if time ≤ s.now then advance s next
    else (.waiting (.workUntil time next) (some time), [])
  | .write level message next => leaving (.written level message) (advance s next)
  | .publish type event next =>
    match s.refusal event with
    | some failure => (.ended (.error (.failed type failure.message)), [])
    | none => leaving (.published event) (advance s next)

end Activity

end Reflex
