import Reflex.Activity
import Reflex.Report
import Reflex.Rule.Resolution
import Reflex.Text.Quoted

/-!
# The Scheduler

The scheduler runs instances of rules. The actions of an instance are invoked one after the
other, and the first one that does not complete ends the instance. Of an exclusive rule one
instance is started at a time; what becomes of further ones is decided by the conflict policy.
A failed action is invoked again as long as the retry policy of the instance allows it. An
action that exceeds its deadline is asked to stop, and goes on until it notices.

The scheduler is a machine that advances in steps. Requests come from outside at any time.
The other steps belong to one instance each and are possible in certain phases of it; which one
comes next is not the scheduler's decision.

A step is a stretch without a pause, and requests land between such stretches only. So the look at
the cancellation of an instance and the invocation that follows it are one step, `proceed?`: a
request comes before the look or after the invocation. In the same way the end of a pause and the
next attempt are one step, `resume?`. That no action is invoked after a request for the cancellation
of its instance (`Scheduler.halted_of_run`) relies on this.

## Main definitions

- `Reflex.Scheduler`, `Reflex.Scheduler.Instance`, `Reflex.Scheduler.Phase`: the state.
- `Reflex.Scheduler.submit`, `Reflex.Scheduler.cancel`, `Reflex.Scheduler.requestCancel`,
  `Reflex.Scheduler.cancelAll`, `Reflex.Scheduler.close`: requests.
- `Reflex.Scheduler.start?`, `Reflex.Scheduler.proceed?`, `Reflex.Scheduler.answer?`,
  `Reflex.Scheduler.expire?`, `Reflex.Scheduler.resume?`, `Reflex.Scheduler.abandon?`,
  `Reflex.Scheduler.release?`, `Reflex.Scheduler.publish?`: steps of an instance.
-/

namespace Reflex

/-- How often and after which pause a failed action is invoked again. -/
structure RetryPolicy where
  /-- The number of invocations in total; zero counts as one. -/
  attempts : Nat := 1
  /-- The pause in milliseconds. -/
  backoffMs : Nat := 0
  deriving DecidableEq, Repr

/-- The greatest number of invocations of one action. -/
def RetryPolicy.maxAttempts (r : RetryPolicy) : Nat :=
  max 1 r.attempts

namespace Scheduler

/-- What holds for all instances. -/
structure Settings where
  /-- The deadline in milliseconds of actions that declare none. -/
  defaultTimeoutMs : Option Nat := some 30000
  /-- The conflict policy of exclusive rules that declare none. -/
  conflictPolicy : ConflictPolicy := .queue
  deriving DecidableEq, Repr

/-- What an instance runs with. -/
structure Job where
  /-- The rule. -/
  rule : CompiledRule
  /-- The event that triggered the rule. -/
  event : Event
  /-- The parameters of the actions, frozen. -/
  parameters : List Snapshot
  /-- What happens when an action fails. -/
  retry : RetryPolicy := {}

/-- Where an instance stands. -/
inductive Phase where
  -- It waits behind another instance of its exclusive rule.
  | queued
  -- It is the next instance of its exclusive rule, and starts when the report of the one before
  -- is out.
  | called
  -- It can start.
  | ready
  -- The actions of the outcomes completed, and it is about to go on with the next one.
  | proceeding (outcomes : List ActionOutcome)
  -- The action that follows the outcomes is being invoked for the given time; the flag says
  -- whether its deadline has passed.
  | attempting (outcomes : List ActionOutcome) (attempt : Nat) (expired : Bool)
  -- The action that follows the outcomes failed in the given attempt and is invoked again after
  -- a pause.
  | backingOff (outcomes : List ActionOutcome) (attempt : Nat)
  -- It has ended, and its exclusive rule is not yet handed on.
  | leaving (report : Report)
  -- Its report is about to go out; then the next instance of its rule starts, if there is
  -- one.
  | reporting (report : Report) (next : Option Nat)
  -- Its report is out.
  | reported (report : Report)
  deriving DecidableEq

/-- An accepted instance. -/
structure Instance where
  /-- What it runs with. -/
  job : Job
  /-- Whether its cancellation was requested. -/
  cancelled : Bool := false
  /-- The state that observers see. -/
  state : InstanceState := .pending
  /-- Where it stands. -/
  phase : Phase

/-- What became of a submission. -/
inductive Submission where
  -- The instance of the number can start.
  | started (id : Nat)
  -- The instance of the number waits behind another one.
  | queued (id : Nat)
  -- There is no instance.
  | dropped
  deriving DecidableEq, Repr

/-- What a step makes happen outside. -/
inductive Effect where
  -- The action at a position is invoked for the given time.
  | invoke (id : Nat) (index : Nat) (attempt : Nat)
  -- A report goes out.
  | deliver (report : Report)
  deriving DecidableEq

end Scheduler

open Scheduler in
/-- The instances and what they compete for. -/
structure Scheduler where
  /-- What holds for all instances. -/
  settings : Settings := {}
  /-- Whether new instances are refused. -/
  closed : Bool := false
  /-- The accepted instances; the number of an instance is its position. -/
  instances : List Instance := []
  /-- The exclusive rules of which an instance has started, each with the queue of the
  instances that wait. -/
  slots : Identifier → Option (List Nat) := fun _ => none
  /-- The instances that have not ended. -/
  active : List Nat := []

namespace Scheduler

variable (s : Scheduler)

/-! ## Access -/

/-- The instance of a number. -/
def instance? (id : Nat) : Option Instance :=
  s.instances[id]?

/-- Change the instance of a number. -/
def modify (id : Nat) (f : Instance → Instance) : Scheduler :=
  { s with instances := s.instances.modify id f }

/-- Put an instance into a phase. -/
def setPhase (id : Nat) (phase : Phase) : Scheduler :=
  s.modify id fun i => { i with phase }

/-- Set or remove the queue of a rule. -/
def setSlot (rule : Identifier) (queue : Option (List Nat)) : Scheduler :=
  { s with slots := fun r => if r = rule then queue else s.slots r }

/-! ## Requests -/

/-- Whether the job belongs to an exclusive rule. -/
def Job.isExclusive (job : Job) : Bool :=
  job.rule.definition.exclusive

/-- The conflict policy of a job: that of its rule, or else the general one. -/
def policy (job : Job) : ConflictPolicy :=
  job.rule.definition.onConflict.getD s.settings.conflictPolicy

/-- Accept an instance, in the phase in which it begins. -/
def accept (job : Job) (cancelled : Bool) (phase : Phase) : Scheduler :=
  { s with
    instances := s.instances ++ [{ job, cancelled, phase }]
    active := s.active ++ [s.instances.length] }

/-- Submit an instance; its cancellation may have been requested already. -/
def submit (job : Job) (cancelled : Bool) : Scheduler × Submission :=
  let id := s.instances.length
  if s.closed then (s, .dropped)
  else if !job.isExclusive then (s.accept job cancelled .ready, .started id)
  else
    match s.slots job.rule.id with
    -- the rule is free: it is taken, with nobody waiting
    | none => ((s.setSlot job.rule.id (some [])).accept job cancelled .ready, .started id)
    -- the rule is taken
    | some queue =>
      match s.policy job with
      | .drop => (s, .dropped)
      | .queue =>
        ((s.setSlot job.rule.id (some (queue ++ [id]))).accept job cancelled .queued, .queued id)

/-- Request the cancellation of an instance. -/
def requestCancel (id : Nat) : Scheduler :=
  s.modify id fun i => { i with cancelled := true }

/-- Request the cancellation of an instance that has not ended, and say whether there is one. -/
def cancel (id : Nat) : Scheduler × Bool :=
  if s.active.contains id then (s.requestCancel id, true) else (s, false)

/-- Request the cancellation of all instances that have not ended. -/
def cancelAll : Scheduler :=
  s.active.foldl requestCancel s

/-- Refuse new instances from now on. -/
def close : Scheduler :=
  { s with closed := true }

/-- The number of instances that have not ended. -/
def activeCount : Nat :=
  s.active.length

/-! ## Steps of an instance -/

/-- The outcomes of the actions from a position on that are not invoked. -/
def skippedFrom (index : Nat) : List CompiledAction → List ActionOutcome
  | [] => []
  | a :: rest =>
    { index, type := a.type, state := .skipped, attempts := 0 } :: skippedFrom (index + 1) rest

/-- Outcomes, and the remaining actions of the rule as skipped. -/
def withSkipped (job : Job) (outcomes : List ActionOutcome) : List ActionOutcome :=
  outcomes ++ skippedFrom outcomes.length (job.rule.actions.drop outcomes.length)

/-- The report of an instance that ends after the outcomes. -/
def Instance.report (i : Instance) (id : Nat) (state : InstanceState) (started : Bool)
    (outcomes : List ActionOutcome) : Report :=
  { id, rule := i.job.rule.id, ruleName := i.job.rule.name, state
    outcomes := withSkipped i.job outcomes, started }

/-- Where an instance stands when it has ended. -/
def Instance.exit (i : Instance) (report : Report) : Phase :=
  if i.job.isExclusive then .leaving report else .reporting report none

/-- End an instance: it is no longer active, its state is final, and its exclusive rule is to be
handed on before its report goes out. -/
def finish (id : Nat) (i : Instance) (state : InstanceState) (started : Bool)
    (outcomes : List ActionOutcome) : Scheduler :=
  let phase := i.exit (i.report id state started outcomes)
  { s with active := s.active.erase id }.modify id fun i => { i with state, phase }

/-- Start an instance that is ready. -/
def start? (id : Nat) : Option (Scheduler × List Effect) := do
  let i ← s.instance? id
  match i.phase with
  | .ready =>
    if i.cancelled then some (s.finish id i .cancelled false [], [])
    else some (s.modify id fun i => { i with state := .running, phase := .proceeding [] }, [])
  | _ => none

/-- Go on after completed actions: invoke the next one, unless there is none or the cancellation
of the instance was requested. No request lands between the look at the cancellation and the
invocation. -/
def proceed? (id : Nat) : Option (Scheduler × List Effect) := do
  let i ← s.instance? id
  match i.phase with
  | .proceeding outcomes =>
    if i.job.rule.actions.length ≤ outcomes.length then
      some (s.finish id i .completed true outcomes, [])
    else if i.cancelled then some (s.finish id i .cancelled true outcomes, [])
    else
      some (s.setPhase id (.attempting outcomes 1 false), [.invoke id outcomes.length 1])
  | _ => none

/-- The deadline in milliseconds of the action at a position. -/
def timeoutMs? (job : Job) (index : Nat) : Option Nat :=
  match (job.rule.actions[index]?).bind (·.timeoutMs) with
  | some ms => some ms.toNat
  | none => s.settings.defaultTimeoutMs

/-- The type of the action at a position. -/
def Job.actionType (job : Job) (index : Nat) : String :=
  ((job.rule.actions[index]?).map (·.type)).getD ""

/-- What the action at a position is invoked with. -/
def Job.invocation (job : Job) (index attempt : Nat) : Invocation :=
  { rule := job.rule.id, index, attempt, type := job.actionType index
    parameters := ((job.parameters[index]?).map (·.values)).getD .empty, event := job.event }

/-- The text of a passed deadline. -/
def deadlineMessage (type : String) (ms : Nat) : String :=
  "action `" ++ type ++ "` exceeded its " ++ Duration.text ms ++ " deadline"

/-- The error of an invocation, if it did not end well. A crash is an error like any other. -/
def errorOf? (type : String) : InvocationResult → Option ActionError
  | .completed => none
  | .error e => some e
  | .crashed message =>
    some (.failed type ("task N panicked with message " ++ Text.quoted message))

/-- End an instance with an action that did not complete. -/
def stop (id : Nat) (i : Instance) (outcomes : List ActionOutcome) (attempt : Nat)
    (state : InstanceState) (action : ActionState) (error : Option String) : Scheduler :=
  let index := outcomes.length
  s.finish id i state true
    (outcomes ++ [{ index, type := i.job.actionType index, state := action, attempts := attempt
                    error }])

/-- The invocation in progress has ended. -/
def answer? (id : Nat) (result : InvocationResult) : Option (Scheduler × List Effect) := do
  let i ← s.instance? id
  match i.phase with
  | .attempting outcomes attempt expired =>
    let index := outcomes.length
    let type := i.job.actionType index
    match errorOf? type result with
    | none =>
      some (s.setPhase id (.proceeding
        (outcomes ++ [{ index, type, state := .completed, attempts := attempt }])), [])
    | some .cancelled =>
      -- what stops after its deadline is told to have exceeded it
      let error := if expired then (s.timeoutMs? i.job index).map (deadlineMessage type) else none
      some (s.stop id i outcomes attempt .cancelled .cancelled error, [])
    | some e =>
      -- a cancelled instance makes no further attempt
      if i.job.retry.maxAttempts ≤ attempt || i.cancelled then
        some (s.stop id i outcomes attempt .failed .failed (some e.message), [])
      else some (s.setPhase id (.backingOff outcomes attempt), [])
  | _ => none

/-- The deadline of the invocation in progress passes. -/
def expire? (id : Nat) : Option (Scheduler × List Effect) := do
  let i ← s.instance? id
  match i.phase with
  | .attempting outcomes attempt false =>
    match s.timeoutMs? i.job outcomes.length with
    | some _ => some (s.setPhase id (.attempting outcomes attempt true), [])
    | none => none
  | _ => none

/-- The pause after a failed attempt is over, and the action is invoked again. No request lands in
between: one that comes during the pause can cut it short instead. -/
def resume? (id : Nat) : Option (Scheduler × List Effect) := do
  let i ← s.instance? id
  match i.phase with
  | .backingOff outcomes attempt =>
    some (s.setPhase id (.attempting outcomes (attempt + 1) false),
      [.invoke id outcomes.length (attempt + 1)])
  | _ => none

/-- The pause after a failed attempt is cut short, because the cancellation of the instance was
requested. -/
def abandon? (id : Nat) : Option (Scheduler × List Effect) := do
  let i ← s.instance? id
  match i.phase with
  | .backingOff outcomes attempt =>
    if i.cancelled then some (s.stop id i outcomes attempt .cancelled .cancelled none, [])
    else none
  | _ => none

/-- Hand an exclusive rule on: to the instance that waited longest, or to nobody. -/
def release? (id : Nat) : Option (Scheduler × List Effect) := do
  let i ← s.instance? id
  match i.phase with
  | .leaving report =>
    match s.slots i.job.rule.id with
    | some (next :: queue) =>
      -- the rule stays taken while it is handed on
      some (((s.setSlot i.job.rule.id (some queue)).setPhase next .called).setPhase id
        (.reporting report (some next)), [])
    | some [] | none =>
      some ((s.setSlot i.job.rule.id none).setPhase id (.reporting report none), [])
  | _ => none

/-- Send the report of an instance out, and let the next instance of its rule start. -/
def publish? (id : Nat) : Option (Scheduler × List Effect) := do
  let i ← s.instance? id
  match i.phase with
  | .reporting report next =>
    let s := s.setPhase id (.reported report)
    let s := match next with
      | some next => s.setPhase next .ready
      | none => s
    some (s, [.deliver report])
  | _ => none

/-- Whether the action that an instance invokes is asked to stop: the cancellation of the
instance was requested, or the deadline of the action has passed. -/
def isAskedToStop (id : Nat) : Bool :=
  match s.instance? id with
  | some i =>
    i.cancelled || (match i.phase with
      | .attempting _ _ expired => expired
      | _ => false)
  | none => false

/-- Whether an instance has work in progress. -/
def Instance.isLive (i : Instance) : Bool :=
  match i.phase with
  | .queued | .called | .reported _ => false
  | _ => true

/-- Whether the scheduler is closed and has no work in progress. -/
def isStopped : Bool :=
  s.closed && s.instances.all fun i => !i.isLive

end Scheduler

end Reflex
