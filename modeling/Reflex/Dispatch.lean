import Reflex.Engine
import Reflex.Scheduler

/-!
# Dispatching Events

An event starts an instance of every active rule that it triggers. Intents are addressed to the
platform and trigger nothing, so that actions cannot set off rules.

## Main definitions

- `Reflex.Engine.jobs`: what an event starts.
- `Reflex.Engine.dispatch`: submit all of it.
-/

namespace Reflex

/-- What a rule runs with for an event, if its parameters can be filled from the event. -/
def CompiledRule.job? (r : CompiledRule) (e : Event) : Option Scheduler.Job :=
  match r.resolve e with
  | .ok parameters => some { rule := r, event := e, parameters }
  | .error _ => none

/-- What an event starts, in the order of the active rules. -/
def Engine.jobs (engine : Engine) (e : Event) : List Scheduler.Job :=
  if e.isIntent then [] else (engine.evaluate e).filterMap fun r => r.job? e

/-- Submit jobs one after the other. -/
def Scheduler.submitAll (s : Scheduler) : List Scheduler.Job → Scheduler × List Scheduler.Submission
  | [] => (s, [])
  | job :: jobs =>
    let (s, submission) := s.submit job false
    let (s, submissions) := s.submitAll jobs
    (s, submission :: submissions)

/-- Submit all that an event starts. -/
def Engine.dispatch (engine : Engine) (s : Scheduler) (e : Event) :
    Scheduler × List Scheduler.Submission :=
  s.submitAll (engine.jobs e)

end Reflex
