import Reflex.Builtin.Source
import Reflex.Dispatch
import Reflex.Mailbox
import Reflex.Rehearsal.Script

/-!
# Rehearsals

A rehearsal runs rules in simulated time. The stage holds the engine, the scheduler and the
actions in progress, together with a clock in milliseconds, the tasks that can go on now, and the
timers that wake tasks later. Tasks that can go on take turns in the order in which they were
woken; the clock moves on only when none of them can.

## Main definitions

- `Reflex.Rehearsal.Stage`, `Reflex.Rehearsal.Task`.
- `Reflex.Rehearsal.Stage.step?`: the turn of one task.
- `Reflex.Rehearsal.Stage.settle`: turns until no task can go on at the current time.
- `Reflex.Rehearsal.Stage.runUntil`: let time pass until a condition holds.
-/

namespace Reflex.Rehearsal

/-- What can take a turn. -/
inductive Task where
  -- Carry an instance of a rule on.
  | conduct (id : Nat)
  -- Carry the action that an instance invokes on.
  | perform (id : Nat)
  -- Dispatch the events of the bus that a listener received.
  | listen (n : Nat)
  deriving DecidableEq, Repr

/-- How an invocation is noted. -/
inductive Mark where
  -- It begins.
  | start
  -- It ended well.
  | ok
  -- It ended as cancelled.
  | cancelled
  -- It ended with an error.
  | error
  deriving DecidableEq, Repr

/-- The name of a mark. -/
def Mark.name : Mark → String
  | .start => "start"
  | .ok => "ok"
  | .cancelled => "cancelled"
  | .error => "error"

/-- The mark of a result. A crash leaves none. -/
def Mark.ofResult? : InvocationResult → Option Mark
  | .completed => some .ok
  | .error .cancelled => some .cancelled
  | .error _ => some .error
  | .crashed _ => none

/-- A note on an invocation. -/
structure Note where
  /-- The time. -/
  time : Nat
  /-- The name under which the rule was last loaded. -/
  ruleName : String
  /-- What was invoked. -/
  call : Invocation
  /-- What happened. -/
  mark : Mark

/-- An action in progress. -/
structure Performer where
  /-- What was invoked. -/
  call : Invocation
  /-- What remains to be done. -/
  rest : Activity
  /-- Whether it has begun. -/
  begun : Bool := false
  /-- How it ended, when it has. -/
  result : Option InvocationResult := none

/-- What belongs to an instance on the stage. -/
structure Actor where
  /-- The action that it invokes. -/
  performer : Option Performer := none
  /-- The time at which the deadline of the action passes, or at which the pause before the next
  attempt is over. -/
  due : Option Nat := none

/-- What belongs to an instance that invokes nothing. -/
def Actor.idle : Actor := {}

/-- What is fixed for a rehearsal. -/
structure Plan where
  /-- What holds for all instances. -/
  settings : Scheduler.Settings := {}
  /-- The capacity of the bus for each listener. -/
  busCapacity : Nat := 64
  /-- The capacity of the subscription to reports; zero counts as one. -/
  reportCapacity : Nat := 64
  /-- The script that plays the actions; without one they are performed. -/
  script : Option Script := none
  /-- Whether nothing can be published. -/
  refusesEvents : Bool := false

/-- The state of a rehearsal. -/
structure Stage where
  /-- What is fixed. -/
  plan : Plan
  /-- The time in milliseconds. -/
  now : Nat := 0
  /-- The active rules. -/
  engine : Engine
  /-- The instances. -/
  scheduler : Scheduler
  /-- What belongs to the instances, in their order. -/
  actors : List Actor := []
  /-- The tasks that can go on, in the order of their turns. -/
  ready : List Task := []
  /-- The times at which tasks are woken, in their order. -/
  timers : List (Nat × Task) := []
  /-- The mailbox that a new listener gets. -/
  newBox : Mailbox Event
  /-- The mailboxes of the listeners, in the order in which they came. -/
  listeners : List (Mailbox Event) := []
  /-- Whether the latest listener can still be ended; those before it stay to the end. -/
  canEnd : Bool := false
  /-- The reports that were not yet taken. -/
  reports : Mailbox Report
  /-- The published events with their times. -/
  published : List (Nat × Event) := []
  /-- The log entries. -/
  written : List (LogLevel × String) := []
  /-- The notes on invocations. -/
  notes : List Note := []
  /-- The names under which rules were loaded, the latest one first. -/
  ruleNames : List (Identifier × String) := []

namespace Stage

/-- The stage at the beginning, before any rule is loaded. There is none for a bus without
capacity. -/
def open? (plan : Plan) (catalog : Catalog) : Option Stage := do
  let newBox ← Mailbox.ofCapacity? Event plan.busCapacity
  let reports ← Mailbox.ofCapacity? Report (max 1 plan.reportCapacity)
  let scheduler : Scheduler := { settings := plan.settings }
  return { plan, engine := { catalog }, scheduler, newBox, reports }

variable (w : Stage)

/-! ## Tasks and timers -/

/-- Let a task have a turn after the others. -/
def wake (t : Task) : Stage :=
  if w.ready.contains t then w else { w with ready := w.ready ++ [t] }

/-- Put a timer behind all those that are not later. -/
def insertTimer (time : Nat) (t : Task) : List (Nat × Task) → List (Nat × Task)
  | [] => [(time, t)]
  | e :: rest => if time < e.1 then (time, t) :: e :: rest else e :: insertTimer time t rest

/-- Forget the timer of a task. -/
def dropTimer (t : Task) : Stage :=
  { w with timers := w.timers.filter fun e => e.2 != t }

/-- Wake a task at a later time, and at no other one. -/
def setTimer (time : Nat) (t : Task) : Stage :=
  if w.timers.contains (time, t) then w
  else
    -- a task has one timer at most
    let w := w.dropTimer t
    if time ≤ w.now then w else { w with timers := insertTimer time t w.timers }

/-! ## Instances -/

/-- What belongs to an instance. -/
def actor (id : Nat) : Actor :=
  (w.actors[id]?).getD .idle

/-- Set what belongs to an instance. -/
def setActor (id : Nat) (a : Actor) : Stage :=
  { w with actors := w.actors.set id a }

/-- Take up what became of a submission. -/
def enter (scheduler : Scheduler) (submission : Scheduler.Submission) : Stage :=
  match submission with
  | .started id => { w with scheduler, actors := w.actors ++ [Actor.idle] }.wake (.conduct id)
  | .queued _ => { w with scheduler, actors := w.actors ++ [Actor.idle] }
  | .dropped => { w with scheduler }

/-- Submit a job. -/
def submitJob (job : Scheduler.Job) (cancelled : Bool) : Stage × Scheduler.Submission :=
  let (scheduler, submission) := w.scheduler.submit job cancelled
  (w.enter scheduler submission, submission)

/-- Submit all that an event starts. -/
def dispatch (e : Event) : Stage × List Scheduler.Submission :=
  let (scheduler, submissions) := w.engine.dispatch w.scheduler e
  (submissions.foldl (fun w s => w.enter scheduler s) { w with scheduler }, submissions)

/-- What an invoked action does. -/
def activity (call : Invocation) : Activity :=
  match w.plan.script with
  | some script => script.perform call
  | none => Builtin.perform call

/-- Invoke an action of an instance. -/
def invoke (id index attempt : Nat) : Stage :=
  match w.scheduler.instance? id with
  | some i =>
    let call := i.job.invocation index attempt
    let due := (w.scheduler.timeoutMs? i.job index).map (w.now + ·)
    let w := (w.setActor id { performer := some { call, rest := w.activity call }, due }).wake
      (.perform id)
    match due with
    | some time => w.setTimer time (.conduct id)
    | none => w.dropTimer (.conduct id)
  | none => w

/-- Make the effects of a step of an instance happen. -/
def applyEffects (effects : List Scheduler.Effect) : Stage :=
  effects.foldl (fun w effect => match effect with
    | .invoke id index attempt => w.invoke id index attempt
    | .deliver report => { w with reports := w.reports.put report }) w

/-- Take up a step of an instance. -/
def accept (r : Scheduler × List Scheduler.Effect) : Stage :=
  { w with scheduler := r.1 }.applyEffects r.2

/-- Begin the pause before the next attempt, if an instance is about to make one. -/
def beginPause (id : Nat) : Stage :=
  match w.scheduler.instance? id with
  | some i =>
    match i.phase with
    | .backingOff .. =>
      let time := w.now + i.job.retry.backoffMs
      (w.setActor id { due := some time }).setTimer time (.conduct id)
    | _ => w
  | none => w

/-- Whether the deadline or the pause of an instance is over. -/
def isDue (id : Nat) : Bool :=
  (w.actor id).due.any (· ≤ w.now)

/-- The next step of an instance that is possible now, and the instance that the task goes on
with. -/
def conduct? (id : Nat) : Option (Stage × Nat) := do
  let i ← w.scheduler.instance? id
  match i.phase with
  | .ready => return (w.accept (← w.scheduler.start? id), id)
  | .proceeding _ => return (w.accept (← w.scheduler.proceed? id), id)
  | .attempting _ _ expired =>
    match (w.actor id).performer.bind (·.result) with
    -- an answer wins over a deadline that has passed unnoticed
    | some result =>
      let w := w.dropTimer (.conduct id)
      return ((w.accept (← w.scheduler.answer? id result)).beginPause id, id)
    | none =>
      if !expired && w.isDue id then
        return ((w.accept (← w.scheduler.expire? id)).wake (.perform id), id)
      else none
  | .backingOff .. =>
    -- a cancellation wins over the end of the pause
    if i.cancelled then
      return ((w.dropTimer (.conduct id)).accept (← w.scheduler.abandon? id), id)
    else if w.isDue id then
      return ((w.dropTimer (.conduct id)).accept (← w.scheduler.resume? id), id)
    else none
  | .leaving _ => return (w.accept (← w.scheduler.release? id), id)
  -- the task goes on with the instance that was handed the rule
  | .reporting _ next => return (w.accept (← w.scheduler.publish? id), next.getD id)
  | .queued | .called | .reported _ => none

/-! ## Actions -/

/-- Why an event cannot be published, if it cannot. -/
def refusal (e : Event) : Option Failure :=
  if w.plan.refusesEvents then some (.notFound { entity := "Bus", id := e.kind }) else none

/-- Put an event on the bus. Every listener gets it. -/
def emit (e : Event) : Stage :=
  let w := { w with
    published := w.published ++ [(w.now, e)]
    listeners := w.listeners.map (·.put e) }
  (List.range w.listeners.length).foldl (fun w n => w.wake (.listen n)) w

/-- Publish an event. -/
def publish (e : Event) : Except Failure Stage :=
  match w.refusal e with
  | some failure => .error failure
  | none => .ok (w.emit e)

/-- Take up what an activity left behind. -/
def collect (traces : List Trace) : Stage :=
  traces.foldl (fun w trace => match trace with
    | .written level message => { w with written := w.written ++ [(level, message)] }
    | .published e => w.emit e) w

/-- The name under which a rule was last loaded. -/
def ruleName (id : Identifier) : String :=
  ((w.ruleNames.find? fun e => e.1 == id).map (·.2)).getD ""

/-- Note something about an invocation, when a script plays. -/
def note (call : Invocation) (mark : Mark) : Stage :=
  if w.plan.script.isSome then
    { w with notes := w.notes ++ [{ time := w.now, ruleName := w.ruleName call.rule, call, mark }] }
  else w

/-- Carry on the action that an instance invokes. -/
def perform (id : Nat) : Stage :=
  let a := w.actor id
  match a.performer with
  | some p =>
    if p.result.isSome then w
    else
      -- the beginning is noted before anything that the action does
      let w := if p.begun then w else w.note p.call .start
      let p := { p with begun := true }
      let (progress, traces) := p.rest.advance
        { now := w.now, asked := w.scheduler.isAskedToStop id, refusal := w.refusal }
      let w := w.collect traces
      match progress with
      | .ended result =>
        let w := w.setActor id { a with performer := some { p with result := some result } }
        let w := match Mark.ofResult? result with
          | some mark => w.note p.call mark
          | none => w
        (w.dropTimer (.perform id)).wake (.conduct id)
      | .waiting rest time =>
        let w := w.setActor id { a with performer := some { p with rest } }
        match time with
        | some time => w.setTimer time (.perform id)
        | none => w.dropTimer (.perform id)
  | none => w

/-! ## Turns and time -/

/-- Let a task go on before the others. -/
def resume (t : Task) : Stage :=
  { w with ready := t :: w.ready }

/-- One step of the task whose turn it is, if there is one. A task keeps its turn as long as it
can go on. -/
def step? : Option Stage :=
  match w.ready with
  | [] => none
  | t :: rest =>
    let w := { w with ready := rest }
    match t with
    | .conduct id =>
      match w.conduct? id with
      | some (w, next) => some (w.resume (.conduct next))
      | none => some w
    | .perform id => some (w.perform id)
    | .listen n =>
      match (w.listeners[n]?).bind Mailbox.next? with
      | some (e, box) =>
        let w := { w with listeners := w.listeners.set n box }
        some ((w.dispatch e).1.resume (.listen n))
      | none => some w

/-- Make at most as many steps as the fuel allows. -/
def settleWithin : Nat → Stage → Stage
  | 0, w => w
  | fuel + 1, w =>
    match w.step? with
    | some w => settleWithin fuel w
    | none => w

/-- After so many steps a rehearsal is cut off. -/
def patience : Nat := 0x1000000000000000

/-- Let all tasks go on until none can at the current time. -/
def settle : Stage :=
  settleWithin patience w

/-- Set the clock to a time and wake the tasks whose timers it has reached. -/
def elapse (time : Nat) : Stage :=
  let due := w.timers.takeWhile fun e => e.1 ≤ time
  due.foldl (fun w e => w.wake e.2)
    { w with now := time, timers := w.timers.drop due.length }

/-- The time of the first timer that is not later than the limit. -/
def nextTime? (limit : Option Nat) : Option Nat :=
  match w.timers with
  | (time, _) :: _ => if limit.all (time ≤ ·) then some time else none
  | [] => none

/-- Let time pass from timer to timer, as often as the fuel allows. -/
def runWithin (stop : Stage → Bool) (limit : Option Nat) : Nat → Stage → Stage
  | 0, w => w
  | fuel + 1, w =>
    let w := w.settle
    if stop w then w
    -- nothing can go on now, so the clock jumps to the next timer
    else
      match w.nextTime? limit with
      | some time => runWithin stop limit fuel (w.elapse time)
      | none => { w with now := limit.getD w.now }

/-- Let time pass until a condition holds, but not beyond the limit. -/
def runUntil (stop : Stage → Bool) (limit : Option Nat) : Stage :=
  runWithin stop limit patience w

/-! ## What the audience does -/

/-- Make the rules active that compile. -/
def load (definitions : List RuleDefinition) : Stage :=
  { w with
    engine := w.engine.load definitions
    ruleNames := definitions.foldl (fun names d => (d.id, d.name) :: names) w.ruleNames }

/-- Add a listener to the bus, and settle. It dispatches events beside those that are there. -/
def listen : Stage :=
  let w := { w with listeners := w.listeners ++ [w.newBox], canEnd := true }
  (w.wake (.listen (w.listeners.length - 1))).settle

/-- Settle, and end the latest listener. After that there is none to end until another one is
added. -/
def stop : Stage :=
  let w := w.settle
  if w.canEnd then { w with listeners := w.listeners.dropLast, canEnd := false } else w

/-- Let milliseconds pass. -/
def advance (ms : Nat) : Stage :=
  w.runUntil (fun _ => false) (some (w.now + ms))

/-- The report of an instance, if it is out. -/
def reportOf? (id : Nat) : Option Report := do
  match (← w.scheduler.instance? id).phase with
  | .reported report => some report
  | _ => none

/-- How long the audience waits for a report, in milliseconds. -/
def longestWait : Nat := 1000000000

/-- Wait for the report of an instance; the time and the report, if it comes. -/
def wait (id : Nat) : Stage × Option (Report × Nat) :=
  let w := w.runUntil (fun w => (w.reportOf? id).isSome) (some (w.now + longestWait))
  (w, (w.reportOf? id).map fun report => (report, w.now))

/-- Wake what belongs to an instance. -/
def alert (id : Nat) : Stage :=
  (w.wake (.perform id)).wake (.conduct id)

/-- Request the cancellation of an instance. -/
def requestCancel (id : Nat) : Stage :=
  { w with scheduler := w.scheduler.requestCancel id }.alert id

/-- Request the cancellation of an instance that has not ended, and say whether there is one. -/
def cancel (id : Nat) : Stage × Bool :=
  let (scheduler, found) := w.scheduler.cancel id
  ({ w with scheduler }.alert id, found)

/-- Request the cancellation of all instances that have not ended. -/
def cancelAll : Stage :=
  w.scheduler.active.foldl alert { w with scheduler := w.scheduler.cancelAll }

/-- Cancel all instances, refuse new ones, and wait until nothing is in progress. The answer is
the time at which that is so. -/
def shutdown : Stage × Nat :=
  let w := w.cancelAll
  let w := { w with scheduler := w.scheduler.close }.runUntil
    (fun w => w.scheduler.isStopped) none
  (w, w.now)

/-- Poke several times; what cannot be published is left out. -/
def pokeAll (paths : List String) : Stage :=
  paths.foldl (fun w path => match w.publish (Builtin.pokeEvent path) with
    | .ok w => w
    | .error _ => w) w

end Stage

end Reflex.Rehearsal
