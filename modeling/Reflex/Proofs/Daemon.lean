import Reflex.Builtin.Performance
import Reflex.Proofs.Activity
import Reflex.Proofs.Dispatch
import Mathlib.Data.List.Perm.Subperm
import Mathlib.Logic.Function.Basic

/-!
# Runs of the Daemon

Sources publish events on a bus, which hands each of them to the dispatcher once at most. The
dispatcher submits what an event starts, one job after the other; the scheduler carries its
instances on, and the actions that they invoke publish events on the same bus. All of this goes on
at the same time, in any order. What comes from actions starts nothing, so the submissions of a run
are bounded by what the sources published.

## Main definitions

- `Daemon`, `Daemon.Act`, `Daemon.act?`: the state, and what can happen next.
- `Daemon.Run`: the runs from the beginning.
- `Daemon.Unprovoked`: what holds after every run.

## Main statements

- `Builtin.publishes_perform`: built-in actions publish intents and nothing else.
- `Daemon.Unprovoked.act`: one step keeps what holds.
- `Daemon.unprovoked_of_run`: it holds after every run.
- `Daemon.noFeedback_of_run`: the events of actions start nothing.
-/

namespace Reflex

/-! ## The daemon -/

/-- Who published an event. -/
inductive Origin where
  -- A source of events.
  | source
  -- The action that the instance of the number invokes.
  | action (id : Nat)
  deriving DecidableEq

/-- An event on the bus. -/
structure Publication where
  /-- The event. -/
  event : Event
  /-- Who published it. -/
  origin : Origin
  deriving DecidableEq

/-- The bus, the dispatcher, the scheduler and the actions in progress. -/
structure Daemon where
  /-- What was published, in order. -/
  published : List Publication := []
  /-- What the bus has not yet handed to the dispatcher. -/
  inFlight : List Publication := []
  /-- What the dispatcher received, in order. -/
  received : List Publication := []
  /-- What the dispatcher is about to submit, in order. -/
  pending : List Scheduler.Job := []
  /-- The scheduler. -/
  scheduler : Scheduler
  /-- What happened to the scheduler. -/
  log : Scheduler.Log := []
  /-- Where the latest action of an instance stands. -/
  performing : Nat → Option Progress := fun _ => none

namespace Scheduler

/-- What a move makes happen outside. -/
def Reply.toEffects : Reply → List Effect
  | .effects list => list
  | .quiet | .submission _ | .found _ | .handed _ => []

/-- Whether the move is made without the dispatcher and the actions. -/
def Move.isOwn : Move → Bool
  | .submit .. | .answer .. => false
  | _ => true

/-- The job that a move submits. -/
def Move.job? : Move → Option Job
  | .submit job _ => some job
  | _ => none

/-- The jobs that were submitted, in order. -/
def Log.submitted (log : Log) : List Job :=
  log.filterMap fun o => o.move.job?

end Scheduler

namespace Daemon

/-- What can happen to a daemon. -/
inductive Act where
  -- A source publishes an event.
  | emit (e : Event)
  -- The bus loses the event at a position among those in flight.
  | lose (n : Nat)
  -- The bus hands the event at a position among those in flight to the dispatcher.
  | hand (n : Nat)
  -- The dispatcher submits the next job.
  | submit
  -- The scheduler makes a move of its own.
  | move (m : Scheduler.Move)
  -- The scheduler learns how the action of an instance ended.
  | answer (id : Nat)
  -- The action of an instance runs up to its next pause.
  | perform (id : Nat) (s : Activity.Situation)

variable (w : Daemon)

/-- Put events on the bus. -/
def publish (origin : Origin) (events : List Event) : Daemon :=
  let new := events.map fun event => { event, origin }
  { w with published := w.published ++ new, inFlight := w.inFlight ++ new }

/-- Make an effect of the scheduler happen: an action that is invoked begins. -/
def begin (w : Daemon) : Scheduler.Effect → Daemon
  | .invoke id index attempt =>
    match w.scheduler.instance? id with
    | some i =>
      let rest := Builtin.perform (i.job.invocation index attempt)
      { w with performing := Function.update w.performing id (some (.waiting rest none)) }
    | none => w
  | .deliver _ => w

/-- Let the scheduler make a move. -/
def move? (m : Scheduler.Move) : Option Daemon :=
  (w.scheduler.move? m).map fun r =>
    r.2.toEffects.foldl begin { w with scheduler := r.1, log := w.log ++ [⟨m, r.2⟩] }

/-- What becomes of a daemon with the given active rules. -/
def act? (engine : Engine) : Act → Option Daemon
  | .emit e => some (w.publish .source [e])
  | .lose n =>
    if n < w.inFlight.length then some { w with inFlight := w.inFlight.eraseIdx n } else none
  | .hand n =>
    match w.pending, w.inFlight[n]? with
    | [], some p =>
      some { w with inFlight := w.inFlight.eraseIdx n, received := w.received ++ [p]
                    pending := engine.jobs p.event }
    -- the dispatcher is busy, or there is no such event
    | _, _ => none
  | .submit =>
    match w.pending with
    | job :: rest => { w with pending := rest }.move? (.submit job false)
    | [] => none
  | .move m => if m.isOwn then w.move? m else none
  | .answer id =>
    match w.performing id with
    | some (.ended result) => w.move? (.answer id result)
    | _ => none
  | .perform id s =>
    match w.performing id with
    | some (.waiting rest _) =>
      let r := rest.advance s
      some ({ w with performing := Function.update w.performing id (some r.1) }.publish
        (.action id) (Activity.published r.2))
    | _ => none

/-- The runs of a daemon from its beginning. -/
inductive Run (engine : Engine) (settings : Scheduler.Settings) : Daemon → Prop
  | init : Run engine settings { scheduler := { settings } }
  | snoc {w w' : Daemon} {a : Act} :
      Run engine settings w → w.act? engine a = some w' → Run engine settings w'

/-- Do one thing after the other, as far as they are possible. -/
def play? (engine : Engine) (w : Daemon) : List Act → Option Daemon
  | [] => some w
  | a :: rest => (w.act? engine a).bind fun w => w.play? engine rest

/-- The jobs that were submitted, in order. -/
def submitted : List Scheduler.Job :=
  w.log.submitted

/-- The number of events from sources that are no intents. -/
def provocations : Nat :=
  w.published.countP fun p => p.origin == .source && !p.event.isIntent

end Daemon

/-! ## Built-in actions -/

/-- The kind of an event starts like those of intents. -/
def Event.Intends (e : Event) : Prop :=
  ∃ type, e.kind = intentStem ++ type

namespace Builtin

theorem publishes_thenDo {α : Type} {P : Event → Prop} {step : Except ActionError α}
    {next : α → Activity} (h : ∀ a, (next a).Publishes P) : (thenDo step next).Publishes P := by
  cases step with
  | ok a => exact h a
  | error e => trivial

/-- Whatever it is invoked with, a built-in action publishes intents and nothing else. -/
theorem publishes_perform (call : Invocation) : (perform call).Publishes Event.Intends := by
  show Activity.Publishes Event.Intends (ite _ _ _)
  split
  · exact publishes_thenDo fun message => trivial
  · split
    · refine publishes_thenDo fun seconds => ?_
      split <;> trivial
    · split
      · exact ⟨⟨call.type, rfl⟩, trivial⟩
      · trivial

end Builtin

/-- A submission adds its job to those that were submitted. -/
theorem Scheduler.submitted_snoc (log : Log) (o : Occurrence) :
    Log.submitted (log ++ [o]) = log.submitted ++ o.move.job?.toList := by
  rw [Log.submitted, List.filterMap_append]
  cases hjob : o.move.job? <;> simp [Log.submitted, hjob]

namespace Daemon

/-! ## What holds after every run -/

/-- What holds of a daemon after every run. -/
structure Unprovoked (engine : Engine) (settings : Scheduler.Settings) (w : Daemon) : Prop where
  /-- What happened to the scheduler is a run of it. -/
  scheduled : Scheduler.Run settings w.log w.scheduler
  /-- The actions in progress are going to publish intents and nothing else. -/
  performing : ∀ id rest wake, w.performing id = some (.waiting rest wake) →
    rest.Publishes Event.Intends
  /-- The actions so far have done so. -/
  published : ∀ p ∈ w.published, p.origin ≠ .source → p.event.Intends
  /-- Every event was handed to the dispatcher once at most. -/
  handed : (w.received ++ w.inFlight).Subperm w.published
  /-- The submissions are what the received events start, in their order. -/
  submitted : w.submitted ++ w.pending = w.received.flatMap fun p => engine.jobs p.event

variable {engine : Engine} {settings : Scheduler.Settings} {w w' : Daemon} {a : Act}

/-! ## Steps -/

/-- What an effect of the scheduler can change. -/
structure Begun (w w' : Daemon) : Prop where
  /-- The scheduler is the same. -/
  scheduler : w'.scheduler = w.scheduler ∧ w'.log = w.log
  /-- The bus is the same. -/
  bus : w'.published = w.published ∧ w'.inFlight = w.inFlight
  /-- The dispatcher is the same. -/
  dispatcher : w'.received = w.received ∧ w'.pending = w.pending
  /-- An action in progress was so before, or it is a built-in action that begins. -/
  performing : ∀ id progress, w'.performing id = some progress →
    w.performing id = some progress ∨ ∃ call, progress = .waiting (Builtin.perform call) none

theorem Begun.refl (w : Daemon) : Begun w w :=
  ⟨⟨rfl, rfl⟩, ⟨rfl, rfl⟩, ⟨rfl, rfl⟩, fun _ _ h => .inl h⟩

theorem Begun.trans {w₁ w₂ w₃ : Daemon} (h : Begun w₁ w₂) (h' : Begun w₂ w₃) : Begun w₁ w₃ where
  scheduler := ⟨h'.scheduler.1.trans h.scheduler.1, h'.scheduler.2.trans h.scheduler.2⟩
  bus := ⟨h'.bus.1.trans h.bus.1, h'.bus.2.trans h.bus.2⟩
  dispatcher := ⟨h'.dispatcher.1.trans h.dispatcher.1, h'.dispatcher.2.trans h.dispatcher.2⟩
  performing := by
    intro id progress hprogress
    rcases h'.performing id progress hprogress with hbefore | hbegun
    · exact h.performing id progress hbefore
    · exact .inr hbegun

/-- An effect of the scheduler begins a built-in action at most. -/
theorem begun_begin (w : Daemon) (effect : Scheduler.Effect) : Begun w (w.begin effect) := by
  cases effect with
  | deliver report => exact .refl w
  | invoke id index attempt =>
    unfold begin
    dsimp only
    split
    next i _ =>
      refine ⟨⟨rfl, rfl⟩, ⟨rfl, rfl⟩, ⟨rfl, rfl⟩, fun j progress hprogress => ?_⟩
      dsimp only at hprogress
      by_cases hj : j = id
      · subst hj
        rw [Function.update_self] at hprogress
        exact .inr ⟨_, (Option.some.inj hprogress).symm⟩
      · rw [Function.update_of_ne hj] at hprogress
        exact .inl hprogress
    next => exact .refl w

theorem begun_foldl (w : Daemon) (effects : List Scheduler.Effect) :
    Begun w (effects.foldl begin w) := by
  induction effects generalizing w with
  | nil => exact .refl w
  | cons effect rest ih => exact (begun_begin w effect).trans (ih _)

/-- A move of the daemon is one of its scheduler, with its effects. -/
theorem exists_of_move? {m : Scheduler.Move} (h : w.move? m = some w') :
    ∃ s reply, w.scheduler.move? m = some (s, reply) ∧
      Begun { w with scheduler := s, log := w.log ++ [⟨m, reply⟩] } w' := by
  obtain ⟨⟨s, reply⟩, hmove, rfl⟩ := Option.map_eq_some_iff.1 h
  exact ⟨s, reply, hmove, begun_foldl _ _⟩

/-- A move keeps what holds, if the jobs that it submits are no longer pending. -/
theorem Unprovoked.move {m : Scheduler.Move} {pending : List Scheduler.Job}
    (h : Unprovoked engine settings w) (hpending : m.job?.toList ++ pending = w.pending)
    (hmove : { w with pending }.move? m = some w') : Unprovoked engine settings w' := by
  obtain ⟨s, reply, hscheduler, hbegun⟩ := exists_of_move? hmove
  obtain ⟨hs, hlog⟩ := hbegun.scheduler
  obtain ⟨hpublished, hinFlight⟩ := hbegun.bus
  obtain ⟨hreceived, hrest⟩ := hbegun.dispatcher
  exact {
    scheduled := by
      rw [hs, hlog]
      exact h.scheduled.snoc hscheduler
    performing := by
      intro id rest wake hid
      rcases hbegun.performing id _ hid with hbefore | ⟨call, hcall⟩
      · exact h.performing id rest wake hbefore
      · obtain ⟨rfl, -⟩ := Progress.waiting.inj hcall
        exact Builtin.publishes_perform call
    published := by
      rw [hpublished]
      exact h.published
    handed := by
      rw [hpublished, hinFlight, hreceived]
      exact h.handed
    submitted := by
      rw [Daemon.submitted, hlog, Scheduler.submitted_snoc, hrest, hreceived, List.append_assoc,
        hpending]
      exact h.submitted }

/-- Events from sources, and intents, keep what holds. -/
theorem Unprovoked.publish {origin : Origin} {events : List Event}
    (h : Unprovoked engine settings w)
    (hevents : origin ≠ .source → ∀ e ∈ events, e.Intends) :
    Unprovoked engine settings (w.publish origin events) where
  scheduled := h.scheduled
  performing := h.performing
  published := by
    intro p hp horigin
    rcases List.mem_append.1 hp with hp | hp
    · exact h.published p hp horigin
    · obtain ⟨e, he, rfl⟩ := List.mem_map.1 hp
      exact hevents horigin e he
  handed := by
    show (w.received ++ (w.inFlight ++ _)).Subperm (w.published ++ _)
    rw [← List.append_assoc]
    exact (List.subperm_append_right _).2 h.handed
  submitted := h.submitted

/-- One step keeps what holds. -/
theorem Unprovoked.act (h : Unprovoked engine settings w) (hact : w.act? engine a = some w') :
    Unprovoked engine settings w' := by
  cases a with
  | emit e =>
    obtain rfl := Option.some.inj hact
    exact h.publish fun horigin => absurd rfl horigin
  | lose n =>
    rw [act?] at hact
    split at hact
    next =>
      obtain rfl := Option.some.inj hact
      exact { h with
        handed := (((List.eraseIdx_sublist _ _).append_left _).subperm).trans h.handed }
    next => cases hact
  | hand n =>
    rw [act?] at hact
    split at hact
    next p hpending hp =>
      obtain rfl := Option.some.inj hact
      obtain ⟨hn, rfl⟩ := List.getElem?_eq_some_iff.1 hp
      exact { h with
        handed := by
          have hperm := (List.getElem_cons_eraseIdx_perm hn).append_left w.received
          rw [List.append_assoc, List.singleton_append]
          exact hperm.subperm.trans h.handed
        submitted := by
          have hsubmitted := h.submitted
          rw [hpending, List.append_nil] at hsubmitted
          rw [List.flatMap_append, List.flatMap_singleton, ← hsubmitted]
          rfl }
    next => cases hact
  | submit =>
    rw [act?] at hact
    split at hact
    next job rest hpending => exact h.move (m := .submit job false) hpending.symm hact
    next => cases hact
  | move m =>
    rw [act?] at hact
    split at hact
    next hown =>
      have hnone : m.job? = none := by cases m <;> first | rfl | cases hown
      exact h.move (by rw [hnone]; rfl) hact
    next => cases hact
  | answer id =>
    rw [act?] at hact
    split at hact
    next result _ => exact h.move (m := .answer id result) rfl hact
    next => cases hact
  | perform id s =>
    rw [act?] at hact
    split at hact
    next rest wake hperforming =>
      obtain rfl := Option.some.inj hact
      have hrest := Activity.publishes_of_advance (s := s) (h.performing id rest wake hperforming)
      refine Unprovoked.publish { h with performing := ?_ } fun _ => hrest.1
      intro j left time hleft
      dsimp only at hleft
      by_cases hj : j = id
      · subst hj
        rw [Function.update_self] at hleft
        exact hrest.2 left time (Option.some.inj hleft)
      · rw [Function.update_of_ne hj] at hleft
        exact h.performing j left time hleft
    next => cases hact

/-! ## Runs -/

/-- It holds after every run. -/
theorem unprovoked_of_run (hrun : Run engine settings w) : Unprovoked engine settings w := by
  induction hrun with
  | init =>
    exact {
      scheduled := .nil
      performing := fun _ _ _ h => by cases h
      published := fun _ h => by cases h
      handed := .refl _
      submitted := rfl }
  | snoc _ hact ih => exact ih.act hact

/-- What is done after a run continues it. -/
theorem run_of_play? {acts : List Act} (hrun : Run engine settings w)
    (hplay : w.play? engine acts = some w') : Run engine settings w' := by
  induction acts generalizing w with
  | nil =>
    obtain rfl := Option.some.inj hplay
    exact hrun
  | cons a rest ih =>
    obtain ⟨next, hact, hrest⟩ := Option.bind_eq_some_iff.1 hplay
    exact ih (hrun.snoc hact) hrest

/-- The events that start something are those that are no intents, and each of them starts every
active rule at most. -/
theorem length_flatMap_jobs_le (engine : Engine) (events : List Publication) :
    (events.flatMap fun p => engine.jobs p.event).length ≤
      (events.countP fun p => !p.event.isIntent) * engine.rules.length := by
  induction events with
  | nil => simp
  | cons p rest ih =>
    rw [List.flatMap_cons, List.length_append, List.countP_cons]
    cases hintent : p.event.isIntent with
    | true =>
      rw [Engine.jobs_of_isIntent hintent]
      simpa using ih
    | false =>
      have hjobs := engine.length_jobs_le p.event
      simp only [Bool.not_false, if_true, Nat.add_mul]
      omega

/-- A run makes as many submissions at most as there are pairs of an event from a source that is no
intent and an active rule. -/
theorem Unprovoked.length_submitted_le (h : Unprovoked engine settings w) :
    w.submitted.length ≤ w.provocations * engine.rules.length := by
  have hsources : w.provocations = w.published.countP fun p => !p.event.isIntent := by
    refine List.countP_congr fun p hp => ?_
    by_cases horigin : p.origin = .source
    · simp [horigin]
    · have hintent := Event.isIntent_iff.2 (h.published p hp horigin)
      simp [hintent]
  calc w.submitted.length
      ≤ (w.submitted ++ w.pending).length := by simp
    _ = (w.received.flatMap fun p => engine.jobs p.event).length := by rw [h.submitted]
    _ ≤ (w.received.countP fun p => !p.event.isIntent) * engine.rules.length :=
        length_flatMap_jobs_le engine w.received
    _ ≤ w.provocations * engine.rules.length := by
        rw [hsources]
        refine Nat.mul_le_mul_right _ (List.Subperm.countP_le _ ?_)
        exact (List.sublist_append_left _ _).subperm.trans h.handed

/-- Take any active rules and any run of the daemon. Whatever actions published are intents, and an
intent submits nothing and leaves the scheduler as it is, while any other event submits each of the
active rules that it triggers once. What the run submitted is what the received events start, none
of them received twice, and it is bounded by the events from sources that are no intents. -/
theorem noFeedback_of_run (hrun : Run engine settings w) :
    (∀ p ∈ w.published, p.origin ≠ .source → p.event.Intends) ∧
    (∀ (e : Event) (s : Scheduler), e.Intends → engine.dispatch s e = (s, [])) ∧
    (∀ (e : Event) (s : Scheduler), ¬ e.Intends → engine.Dispatches s e) ∧
    w.received.Subperm w.published ∧
    w.submitted ++ w.pending = (w.received.flatMap fun p => engine.jobs p.event) ∧
    w.submitted.length ≤ w.provocations * engine.rules.length := by
  have h := unprovoked_of_run hrun
  refine ⟨h.published, fun e s he => ?_, fun e s he => ?_, ?_, h.submitted, h.length_submitted_le⟩
  · exact Engine.dispatch_of_isIntent (Event.isIntent_iff.2 he) s
  · refine Engine.dispatches_of_not_isIntent ?_ s
    rw [← Bool.not_eq_true]
    exact fun hintent => he (Event.isIntent_iff.1 hintent)
  · exact (List.sublist_append_left _ _).subperm.trans h.handed

/-- Show a notification whenever anything happens. -/
def alarm : RuleDefinition where
  id := { value := 3 }
  name := "Alarm"
  trigger := .always
  actions := [ActionDefinition.withParam { type := "notify" } "summary" (.ofString "Something")]

/-- Only the alarm is active. -/
def alarmed : Engine :=
  ({ catalog := Builtin.catalog } : Engine).load [alarm]

/-- The alarm goes off at a poke, and the dispatcher receives its notification. -/
def alarmActs : List Act :=
  [.emit { kind := Event.debugPoke }, .hand 0, .submit, .move (.start 0), .move (.proceed 0),
    .perform 0 { now := 0, asked := false }, .answer 0, .hand 0, .move (.proceed 0)]

/-- The notification is on the bus, was received, and did not set the alarm off again. -/
theorem noFeedback_of_alarm :
    ∃ w, Run alarmed {} w ∧
      w.published.map (·.event.kind) = [Event.debugPoke, "intent.notify"] ∧
      w.received.length = 2 ∧ w.submitted.length = 1 ∧
      (∀ p ∈ w.published, p.origin ≠ .source → p.event.Intends) ∧
      w.submitted.length ≤ w.provocations * alarmed.rules.length := by
  have hplay : (play? alarmed { scheduler := {} } alarmActs).map
      (fun w => (w.published.map (·.event.kind), w.received.length, w.submitted.length)) =
      some ([Event.debugPoke, "intent.notify"], 2, 1) := by
    decide +kernel
  obtain ⟨w, hw, hfacts⟩ := Option.map_eq_some_iff.1 hplay
  obtain ⟨hpublished, hcounts⟩ := Prod.mk.inj hfacts
  obtain ⟨hreceived, hsubmitted⟩ := Prod.mk.inj hcounts
  have hrun : Run alarmed {} w := run_of_play? .init hw
  obtain ⟨hintents, -, -, -, -, hbound⟩ := noFeedback_of_run hrun
  exact ⟨w, hrun, hpublished, hreceived, hsubmitted, hintents, hbound⟩

end Daemon

end Reflex
