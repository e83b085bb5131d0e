import Reflex.Scheduler
import Mathlib.Data.List.Basic

/-!
# Runs of the Scheduler

Requests come from outside at any time, and the steps of the instances come in any order. A run is
a sequence of moves, each possible in the state that it meets, with a log of the moves and of what
they made known. A property of the scheduler at any time is a property of the end of every run.

## Main definitions

- `Scheduler.Move`, `Scheduler.Reply`, `Scheduler.move?`: one move and what it makes known.
- `Scheduler.Run`, `Scheduler.play?`: the runs from the beginning, with their logs.
- `Scheduler.Step`: all that a move can do, case by case.

## Main statements

- `Scheduler.step_of_move`: every move is one of the cases.
-/

namespace Reflex.Scheduler

/-- What can happen to a scheduler: a request from outside, or a step of an instance. -/
inductive Move where
  -- A job is submitted; its cancellation may have been requested already.
  | submit (job : Job) (cancelled : Bool)
  -- The cancellation of an instance is requested by its owner.
  | requestCancel (id : Nat)
  -- The cancellation of an instance is requested by its number.
  | cancel (id : Nat)
  -- The cancellation of all instances is requested.
  | cancelAll
  -- New instances are refused from now on.
  | close
  -- An instance starts.
  | start (id : Nat)
  -- An instance goes on with its next action.
  | proceed (id : Nat)
  -- The action that an instance invokes ends.
  | answer (id : Nat) (result : InvocationResult)
  -- The deadline of the action that an instance invokes passes.
  | expire (id : Nat)
  -- The pause of an instance is over.
  | resume (id : Nat)
  -- The pause of an instance is cut short.
  | abandon (id : Nat)
  -- An instance hands its exclusive rule on.
  | release (id : Nat)
  -- The report of an instance goes out.
  | publish (id : Nat)
  deriving Inhabited

/-- The instance that makes the move; requests are made by none. -/
def Move.agent? : Move → Option Nat
  | .submit .. | .requestCancel _ | .cancel _ | .cancelAll | .close => none
  | .start id | .proceed id | .answer id _ | .expire id | .resume id | .abandon id | .release id
  | .publish id => some id

/-- What a move makes known. -/
inductive Reply where
  -- Nothing.
  | quiet
  -- What became of a submission.
  | submission (answer : Submission)
  -- Whether there was an instance to cancel.
  | found (active : Bool)
  -- What the move makes happen outside.
  | effects (effects : List Effect)
  -- To which instance an exclusive rule is handed on.
  | handed (next : Option Nat)
  deriving DecidableEq

/-- The instance that waits longest for the rule of an instance. -/
def successor? (s : Scheduler) (id : Nat) : Option Nat := do
  let i ← s.instance? id
  let queue ← s.slots i.job.rule.id
  queue.head?

/-- Make a move, if it is possible. -/
def move? (s : Scheduler) : Move → Option (Scheduler × Reply)
  | .submit job cancelled =>
    some ((s.submit job cancelled).1, .submission (s.submit job cancelled).2)
  | .requestCancel id => some (s.requestCancel id, .quiet)
  | .cancel id => some ((s.cancel id).1, .found (s.cancel id).2)
  | .cancelAll => some (s.cancelAll, .quiet)
  | .close => some (s.close, .quiet)
  | .start id => (s.start? id).map fun r => (r.1, .effects r.2)
  | .proceed id => (s.proceed? id).map fun r => (r.1, .effects r.2)
  | .answer id result => (s.answer? id result).map fun r => (r.1, .effects r.2)
  | .expire id => (s.expire? id).map fun r => (r.1, .effects r.2)
  | .resume id => (s.resume? id).map fun r => (r.1, .effects r.2)
  | .abandon id => (s.abandon? id).map fun r => (r.1, .effects r.2)
  | .release id => (s.release? id).map fun r => (r.1, .handed (s.successor? id))
  | .publish id => (s.publish? id).map fun r => (r.1, .effects r.2)

/-- A move that was made, with what it made known. -/
structure Occurrence where
  /-- The move. -/
  move : Move
  /-- What it made known. -/
  reply : Reply

/-- What happened to a scheduler, in order. -/
abbrev Log := List Occurrence

/-- The runs of a scheduler from its beginning: what happened, and the state at the end. -/
inductive Run (settings : Settings) : Log → Scheduler → Prop
  | nil : Run settings [] { settings }
  | snoc {log : Log} {s s' : Scheduler} {m : Move} {reply : Reply} :
      Run settings log s → s.move? m = some (s', reply) →
      Run settings (log ++ [⟨m, reply⟩]) s'

/-- Make moves one after the other, as far as they are possible, and keep the log. -/
def play? (log : Log) (s : Scheduler) : List Move → Option (Log × Scheduler)
  | [] => some (log, s)
  | m :: rest => (s.move? m).bind fun r => r.1.play? (log ++ [⟨m, r.2⟩]) rest

/-- Moves that are made after a run continue it. -/
theorem run_of_play? {settings : Settings} {moves : List Move} {log log' : Log}
    {s s' : Scheduler} (hrun : Run settings log s)
    (hplay : s.play? log moves = some (log', s')) : Run settings log' s' := by
  induction moves generalizing log s with
  | nil =>
    obtain ⟨rfl, rfl⟩ := Prod.mk.inj (Option.some.inj hplay)
    exact hrun
  | cons m rest ih =>
    obtain ⟨⟨t, reply⟩, hmove, hrest⟩ := Option.bind_eq_some_iff.1 hplay
    exact ih (hrun.snoc hmove) hrest

/-- No instance can make a move. -/
def IsQuiet (s : Scheduler) : Prop :=
  ∀ m, m.agent?.isSome → s.move? m = none

/-! ## Look-ups after an operation -/

section LookUp

variable (s : Scheduler) (id j : Nat)

/-- A change of one instance is seen at its number and nowhere else. -/
@[simp]
theorem instance?_modify (f : Instance → Instance) :
    (s.modify id f).instance? j = if id = j then (s.instance? j).map f else s.instance? j := by
  simp only [instance?, modify, List.getElem?_modify]
  split <;> simp

@[simp]
theorem length_modify (f : Instance → Instance) :
    (s.modify id f).instances.length = s.instances.length := by
  simp [modify]

/-- An instance exists exactly below the number of the next one. -/
theorem instance?_isSome : (s.instance? id).isSome ↔ id < s.instances.length := by
  simp [instance?]

theorem lt_of_instance? {i : Instance} (h : s.instance? id = some i) :
    id < s.instances.length :=
  (s.instance?_isSome id).1 (by simp [h])

/-- An accepted instance has the next number. -/
theorem instance?_accept (job : Job) (cancelled : Bool) (phase : Phase) :
    (s.accept job cancelled phase).instance? j =
      if j = s.instances.length then some { job, cancelled, phase } else s.instance? j := by
  simp only [instance?, accept]
  by_cases h : j = s.instances.length
  · simp [h]
  · rw [if_neg h, List.getElem?_append]
    split
    · rfl
    · rw [List.getElem?_eq_none (by simp; omega), List.getElem?_eq_none (by omega)]

@[simp]
theorem instance?_setSlot (rule : Identifier) (queue : Option (List Nat)) :
    (s.setSlot rule queue).instance? j = s.instance? j := rfl

/-- Setting the queue of a rule leaves the queues of the others. -/
@[simp]
theorem slots_setSlot (rule r : Identifier) (queue : Option (List Nat)) :
    (s.setSlot rule queue).slots r = if r = rule then queue else s.slots r := rfl

@[simp]
theorem length_setSlot (rule : Identifier) (queue : Option (List Nat)) :
    (s.setSlot rule queue).instances.length = s.instances.length := rfl

/-- Only the instance that ends changes. -/
theorem instance?_finish (i : Instance) (state : InstanceState) (started : Bool)
    (outcomes : List ActionOutcome) :
    (s.finish id i state started outcomes).instance? j =
      if id = j then
        (s.instance? j).map fun x =>
          { x with state, phase := i.exit (i.report id state started outcomes) }
      else s.instance? j := by
  simp only [finish, instance?_modify]
  rfl

@[simp]
theorem length_finish (i : Instance) (state : InstanceState) (started : Bool)
    (outcomes : List ActionOutcome) :
    (s.finish id i state started outcomes).instances.length = s.instances.length := by
  simp [finish]

/-- Requests for the cancellation of several instances mark exactly these. -/
theorem instance?_foldl_requestCancel (ids : List Nat) :
    (ids.foldl requestCancel s).instance? j =
      (s.instance? j).map fun i => { i with cancelled := i.cancelled || ids.contains j } := by
  induction ids generalizing s with
  | nil =>
    rw [List.foldl_nil]
    cases s.instance? j <;> simp
  | cons id ids ih =>
    rw [List.foldl_cons, ih, requestCancel, instance?_modify]
    by_cases h : id = j
    · subst h
      cases s.instance? id <;> simp
    · rw [if_neg h]
      cases s.instance? j <;> simp [Ne.symm h]

/-- Whatever one request for cancellation leaves alone, several of them leave alone. -/
private theorem foldl_requestCancel_eq {β : Type} {f : Scheduler → β}
    (hf : ∀ s id, f (requestCancel s id) = f s) (ids : List Nat) :
    f (ids.foldl requestCancel s) = f s := by
  induction ids generalizing s with
  | nil => rfl
  | cons id ids ih => rw [List.foldl_cons, ih, hf]

theorem slots_foldl_requestCancel (ids : List Nat) :
    (ids.foldl requestCancel s).slots = s.slots :=
  s.foldl_requestCancel_eq (f := (·.slots)) (fun _ _ => rfl) ids

theorem settings_foldl_requestCancel (ids : List Nat) :
    (ids.foldl requestCancel s).settings = s.settings :=
  s.foldl_requestCancel_eq (f := (·.settings)) (fun _ _ => rfl) ids

theorem closed_foldl_requestCancel (ids : List Nat) :
    (ids.foldl requestCancel s).closed = s.closed :=
  s.foldl_requestCancel_eq (f := (·.closed)) (fun _ _ => rfl) ids

theorem active_foldl_requestCancel (ids : List Nat) :
    (ids.foldl requestCancel s).active = s.active :=
  s.foldl_requestCancel_eq (f := (·.active)) (fun _ _ => rfl) ids

theorem length_foldl_requestCancel (ids : List Nat) :
    (ids.foldl requestCancel s).instances.length = s.instances.length :=
  s.foldl_requestCancel_eq (f := (·.instances.length)) (fun s id => s.length_modify id _) ids

end LookUp

/-! ## What a move can do -/

/-- All that a move can do, case by case: the state that it meets, the state that it leaves, and
what it makes known. -/
inductive Step (s : Scheduler) : Move → Scheduler → Reply → Prop
  -- A scheduler that is closed refuses an instance.
  | refuse {job cancelled} (hclosed : s.closed = true) :
      Step s (.submit job cancelled) s (.submission .dropped)
  -- A rule that is taken refuses an instance if its policy says so.
  | drop {job cancelled queue} (hclosed : s.closed = false) (hexclusive : job.isExclusive = true)
      (hslot : s.slots job.rule.id = some queue) (hpolicy : s.policy job = .drop) :
      Step s (.submit job cancelled) s (.submission .dropped)
  -- An instance of a rule that is not exclusive is accepted.
  | accept {job cancelled} (hclosed : s.closed = false) (hexclusive : job.isExclusive = false) :
      Step s (.submit job cancelled) (s.accept job cancelled .ready)
        (.submission (.started s.instances.length))
  -- An instance takes an exclusive rule that is free.
  | take {job cancelled} (hclosed : s.closed = false) (hexclusive : job.isExclusive = true)
      (hslot : s.slots job.rule.id = none) :
      Step s (.submit job cancelled)
        ((s.setSlot job.rule.id (some [])).accept job cancelled .ready)
        (.submission (.started s.instances.length))
  -- An instance waits for an exclusive rule that is taken.
  | enqueue {job cancelled queue} (hclosed : s.closed = false)
      (hexclusive : job.isExclusive = true) (hslot : s.slots job.rule.id = some queue)
      (hpolicy : s.policy job = .queue) :
      Step s (.submit job cancelled)
        ((s.setSlot job.rule.id (some (queue ++ [s.instances.length]))).accept job cancelled
          .queued)
        (.submission (.queued s.instances.length))
  -- The cancellation of instances is requested.
  | mark {m reply} (ids : List Nat) (hagent : m.agent? = none)
      (hreply : reply = .quiet ∨ ∃ active, reply = .found active) :
      Step s m (ids.foldl requestCancel s) reply
  -- The scheduler is closed.
  | close : Step s .close s.close .quiet
  -- An instance whose cancellation was requested ends before it starts.
  | forgo {id i} (hi : s.instance? id = some i) (hphase : i.phase = .ready)
      (hcancelled : i.cancelled = true) :
      Step s (.start id) (s.finish id i .cancelled false []) (.effects [])
  -- An instance starts.
  | start {id i} (hi : s.instance? id = some i) (hphase : i.phase = .ready)
      (hcancelled : i.cancelled = false) :
      Step s (.start id)
        (s.modify id fun i => { i with state := .running, phase := .proceeding [] })
        (.effects [])
  -- An instance ends because all its actions completed.
  | complete {id i outcomes} (hi : s.instance? id = some i)
      (hphase : i.phase = .proceeding outcomes)
      (hlength : i.job.rule.actions.length ≤ outcomes.length) :
      Step s (.proceed id) (s.finish id i .completed true outcomes) (.effects [])
  -- An instance ends between two actions.
  | interrupt {id i outcomes} (hi : s.instance? id = some i)
      (hphase : i.phase = .proceeding outcomes)
      (hlength : outcomes.length < i.job.rule.actions.length) (hcancelled : i.cancelled = true) :
      Step s (.proceed id) (s.finish id i .cancelled true outcomes) (.effects [])
  -- An instance invokes its next action.
  | invoke {id i outcomes} (hi : s.instance? id = some i)
      (hphase : i.phase = .proceeding outcomes)
      (hlength : outcomes.length < i.job.rule.actions.length)
      (hcancelled : i.cancelled = false) :
      Step s (.proceed id) (s.setPhase id (.attempting outcomes 1 false))
        (.effects [.invoke id outcomes.length 1])
  -- An invocation ends well.
  | succeed {id i outcomes attempt late} (hi : s.instance? id = some i)
      (hphase : i.phase = .attempting outcomes attempt late) :
      Step s (.answer id .completed)
        (s.setPhase id (.proceeding (outcomes ++
          [{ index := outcomes.length, type := i.job.actionType outcomes.length
             state := .completed, attempts := attempt }])))
        (.effects [])
  -- An invocation ends as cancelled, and with it the instance.
  | stopCancelled {id i outcomes attempt late} (hi : s.instance? id = some i)
      (hphase : i.phase = .attempting outcomes attempt late) :
      Step s (.answer id (.error .cancelled))
        (s.stop id i outcomes attempt .cancelled .cancelled
          (if late then (s.timeoutMs? i.job outcomes.length).map
            (deadlineMessage (i.job.actionType outcomes.length)) else none))
        (.effects [])
  -- An invocation fails for the last time, and with it the instance.
  | stopFailed {id i outcomes attempt late result e} (hi : s.instance? id = some i)
      (hphase : i.phase = .attempting outcomes attempt late)
      (herror : errorOf? (i.job.actionType outcomes.length) result = some e)
      (hne : e ≠ .cancelled)
      (hlast : i.job.retry.maxAttempts ≤ attempt ∨ i.cancelled = true) :
      Step s (.answer id result)
        (s.stop id i outcomes attempt .failed .failed (some e.message)) (.effects [])
  -- An invocation fails and is to be repeated.
  | backOff {id i outcomes attempt late result e} (hi : s.instance? id = some i)
      (hphase : i.phase = .attempting outcomes attempt late)
      (herror : errorOf? (i.job.actionType outcomes.length) result = some e)
      (hne : e ≠ .cancelled)
      (hmore : attempt < i.job.retry.maxAttempts) (hcancelled : i.cancelled = false) :
      Step s (.answer id result) (s.setPhase id (.backingOff outcomes attempt)) (.effects [])
  -- The deadline of an invocation passes.
  | expire {id i outcomes attempt ms} (hi : s.instance? id = some i)
      (hphase : i.phase = .attempting outcomes attempt false)
      (hlimit : s.timeoutMs? i.job outcomes.length = some ms) :
      Step s (.expire id) (s.setPhase id (.attempting outcomes attempt true)) (.effects [])
  -- An action is invoked again.
  | resume {id i outcomes attempt} (hi : s.instance? id = some i)
      (hphase : i.phase = .backingOff outcomes attempt) :
      Step s (.resume id) (s.setPhase id (.attempting outcomes (attempt + 1) false))
        (.effects [.invoke id outcomes.length (attempt + 1)])
  -- An instance ends in the pause after a failed invocation.
  | abandon {id i outcomes attempt} (hi : s.instance? id = some i)
      (hphase : i.phase = .backingOff outcomes attempt) (hcancelled : i.cancelled = true) :
      Step s (.abandon id) (s.stop id i outcomes attempt .cancelled .cancelled none)
        (.effects [])
  -- An exclusive rule is handed on to the instance that waits longest.
  | handOn {id i report next queue} (hi : s.instance? id = some i)
      (hphase : i.phase = .leaving report)
      (hslot : s.slots i.job.rule.id = some (next :: queue)) :
      Step s (.release id)
        (((s.setSlot i.job.rule.id (some queue)).setPhase next .called).setPhase id
          (.reporting report (some next)))
        (.handed (some next))
  -- An exclusive rule becomes free.
  | free {id i report} (hi : s.instance? id = some i) (hphase : i.phase = .leaving report)
      (hslot : ∀ next queue, s.slots i.job.rule.id ≠ some (next :: queue)) :
      Step s (.release id)
        ((s.setSlot i.job.rule.id none).setPhase id (.reporting report none)) (.handed none)
  -- A report goes out, and the next instance may start.
  | callUp {id i report next} (hi : s.instance? id = some i)
      (hphase : i.phase = .reporting report (some next)) :
      Step s (.publish id) ((s.setPhase id (.reported report)).setPhase next .ready)
        (.effects [.deliver report])
  -- A report goes out, and nobody waits for it.
  | retire {id i report} (hi : s.instance? id = some i)
      (hphase : i.phase = .reporting report none) :
      Step s (.publish id) (s.setPhase id (.reported report)) (.effects [.deliver report])

section Inversion

variable {s s' : Scheduler} {id : Nat} {effects : List Effect}

theorem step_submit (s : Scheduler) (job : Job) (cancelled : Bool) :
    Step s (.submit job cancelled) (s.submit job cancelled).1
      (.submission (s.submit job cancelled).2) := by
  unfold submit
  by_cases hclosed : s.closed = true
  · rw [if_pos hclosed]
    exact .refuse hclosed
  rw [if_neg hclosed]
  rw [Bool.not_eq_true] at hclosed
  by_cases hexclusive : job.isExclusive = true
  · rw [if_neg (by simp [hexclusive])]
    cases hslot : s.slots job.rule.id with
    | none => exact .take hclosed hexclusive hslot
    | some queue =>
      cases hpolicy : s.policy job with
      | drop => exact .drop hclosed hexclusive hslot hpolicy
      | queue => exact .enqueue hclosed hexclusive hslot hpolicy
  · rw [if_pos (by simp [hexclusive])]
    exact .accept hclosed (by simpa using hexclusive)

theorem step_cancel (s : Scheduler) (id : Nat) :
    Step s (.cancel id) (s.cancel id).1 (.found (s.cancel id).2) := by
  unfold cancel
  split
  · exact .mark [id] rfl (.inr ⟨true, rfl⟩)
  · exact .mark [] rfl (.inr ⟨false, rfl⟩)

theorem step_start (h : s.start? id = some (s', effects)) :
    Step s (.start id) s' (.effects effects) := by
  obtain ⟨i, hi, hs⟩ := Option.bind_eq_some_iff.1 h
  clear h
  cases hphase : i.phase <;> simp only [hphase, reduceCtorEq] at hs
  case ready =>
    split at hs
    next hcancelled =>
      obtain ⟨rfl, rfl⟩ := Prod.mk.inj (Option.some.inj hs)
      exact .forgo hi hphase hcancelled
    next hcancelled =>
      obtain ⟨rfl, rfl⟩ := Prod.mk.inj (Option.some.inj hs)
      exact .start hi hphase (by simpa using hcancelled)

theorem step_proceed (h : s.proceed? id = some (s', effects)) :
    Step s (.proceed id) s' (.effects effects) := by
  obtain ⟨i, hi, hs⟩ := Option.bind_eq_some_iff.1 h
  clear h
  cases hphase : i.phase <;> simp only [hphase, reduceCtorEq] at hs
  case proceeding outcomes =>
    split at hs
    next hlength =>
      obtain ⟨rfl, rfl⟩ := Prod.mk.inj (Option.some.inj hs)
      exact .complete hi hphase hlength
    next hlength =>
      split at hs
      next hcancelled =>
        obtain ⟨rfl, rfl⟩ := Prod.mk.inj (Option.some.inj hs)
        exact .interrupt hi hphase (by omega) hcancelled
      next hcancelled =>
        obtain ⟨rfl, rfl⟩ := Prod.mk.inj (Option.some.inj hs)
        exact .invoke hi hphase (by omega) (by simpa using hcancelled)

theorem step_answer {result : InvocationResult} (h : s.answer? id result = some (s', effects)) :
    Step s (.answer id result) s' (.effects effects) := by
  obtain ⟨i, hi, hs⟩ := Option.bind_eq_some_iff.1 h
  clear h
  cases hphase : i.phase <;> simp only [hphase, reduceCtorEq] at hs
  case attempting outcomes attempt late =>
    split at hs
    next herror =>
      -- only a completed invocation has no error
      cases result <;> simp only [errorOf?, reduceCtorEq] at herror
      obtain ⟨rfl, rfl⟩ := Prod.mk.inj (Option.some.inj hs)
      exact .succeed hi hphase
    next herror =>
      cases result <;>
        simp only [errorOf?, Option.some.injEq, reduceCtorEq] at herror
      subst herror
      obtain ⟨rfl, rfl⟩ := Prod.mk.inj (Option.some.inj hs)
      exact .stopCancelled hi hphase
    next e hne herror =>
      have hne : e ≠ .cancelled := fun he => hne he
      split at hs
      next hlast =>
        obtain ⟨rfl, rfl⟩ := Prod.mk.inj (Option.some.inj hs)
        exact .stopFailed hi hphase herror hne (by simpa using hlast)
      next hmore =>
        obtain ⟨rfl, rfl⟩ := Prod.mk.inj (Option.some.inj hs)
        simp only [Bool.or_eq_true, decide_eq_true_eq, not_or, Bool.not_eq_true] at hmore
        exact .backOff hi hphase herror hne (by omega) hmore.2

theorem step_expire (h : s.expire? id = some (s', effects)) :
    Step s (.expire id) s' (.effects effects) := by
  obtain ⟨i, hi, hs⟩ := Option.bind_eq_some_iff.1 h
  clear h
  cases hphase : i.phase <;> simp only [hphase, reduceCtorEq] at hs
  case attempting outcomes attempt late =>
    cases late <;> simp only [reduceCtorEq] at hs
    split at hs
    next ms hlimit =>
      obtain ⟨rfl, rfl⟩ := Prod.mk.inj (Option.some.inj hs)
      exact .expire hi hphase hlimit
    next => cases hs

theorem step_resume (h : s.resume? id = some (s', effects)) :
    Step s (.resume id) s' (.effects effects) := by
  obtain ⟨i, hi, hs⟩ := Option.bind_eq_some_iff.1 h
  clear h
  cases hphase : i.phase <;> simp only [hphase, reduceCtorEq] at hs
  case backingOff outcomes attempt =>
    obtain ⟨rfl, rfl⟩ := Prod.mk.inj (Option.some.inj hs)
    exact .resume hi hphase

theorem step_abandon (h : s.abandon? id = some (s', effects)) :
    Step s (.abandon id) s' (.effects effects) := by
  obtain ⟨i, hi, hs⟩ := Option.bind_eq_some_iff.1 h
  clear h
  cases hphase : i.phase <;> simp only [hphase, reduceCtorEq] at hs
  case backingOff outcomes attempt =>
    split at hs
    next hcancelled =>
      obtain ⟨rfl, rfl⟩ := Prod.mk.inj (Option.some.inj hs)
      exact .abandon hi hphase hcancelled
    next => cases hs

theorem step_release (h : s.release? id = some (s', effects)) :
    Step s (.release id) s' (.handed (s.successor? id)) := by
  obtain ⟨i, hi, hs⟩ := Option.bind_eq_some_iff.1 h
  clear h
  cases hphase : i.phase <;> simp only [hphase, reduceCtorEq] at hs
  case leaving report =>
    split at hs
    next next queue hslot =>
      obtain ⟨rfl, rfl⟩ := Prod.mk.inj (Option.some.inj hs)
      have hnext : s.successor? id = some next := by simp [successor?, hi, hslot]
      rw [hnext]
      exact .handOn hi hphase hslot
    all_goals
      rename_i hslot
      obtain ⟨rfl, rfl⟩ := Prod.mk.inj (Option.some.inj hs)
      have hnext : s.successor? id = none := by simp [successor?, hi, hslot]
      rw [hnext]
      exact .free hi hphase (by simp [hslot])

theorem step_publish (h : s.publish? id = some (s', effects)) :
    Step s (.publish id) s' (.effects effects) := by
  obtain ⟨i, hi, hs⟩ := Option.bind_eq_some_iff.1 h
  clear h
  cases hphase : i.phase <;> simp only [hphase, reduceCtorEq] at hs
  case reporting report next =>
    cases next with
    | none =>
      obtain ⟨rfl, rfl⟩ := Prod.mk.inj (Option.some.inj hs)
      exact .retire hi hphase
    | some next =>
      obtain ⟨rfl, rfl⟩ := Prod.mk.inj (Option.some.inj hs)
      exact .callUp hi hphase

/-- Every move is one of the cases. -/
theorem step_of_move {m : Move} {reply : Reply} (h : s.move? m = some (s', reply)) :
    Step s m s' reply := by
  cases m <;>
    simp only [move?, Option.map_eq_some_iff, Option.some.injEq, Prod.mk.injEq] at h
  case submit job cancelled =>
    obtain ⟨rfl, rfl⟩ := h
    exact step_submit s job cancelled
  case requestCancel id =>
    obtain ⟨rfl, rfl⟩ := h
    exact .mark [id] rfl (.inl rfl)
  case cancel id =>
    obtain ⟨rfl, rfl⟩ := h
    exact step_cancel s id
  case cancelAll =>
    obtain ⟨rfl, rfl⟩ := h
    exact .mark s.active rfl (.inl rfl)
  case close =>
    obtain ⟨rfl, rfl⟩ := h
    exact .close
  case start id =>
    obtain ⟨⟨s', effects⟩, h, rfl, rfl⟩ := h
    exact step_start h
  case proceed id =>
    obtain ⟨⟨s', effects⟩, h, rfl, rfl⟩ := h
    exact step_proceed h
  case answer id result =>
    obtain ⟨⟨s', effects⟩, h, rfl, rfl⟩ := h
    exact step_answer h
  case expire id =>
    obtain ⟨⟨s', effects⟩, h, rfl, rfl⟩ := h
    exact step_expire h
  case resume id =>
    obtain ⟨⟨s', effects⟩, h, rfl, rfl⟩ := h
    exact step_resume h
  case abandon id =>
    obtain ⟨⟨s', effects⟩, h, rfl, rfl⟩ := h
    exact step_abandon h
  case release id =>
    obtain ⟨⟨s', effects⟩, h, rfl, rfl⟩ := h
    exact step_release h
  case publish id =>
    obtain ⟨⟨s', effects⟩, h, rfl, rfl⟩ := h
    exact step_publish h

end Inversion

/-- The settings stay. -/
theorem settings_of_run {settings : Settings} {log : Log} {s : Scheduler}
    (hrun : Run settings log s) : s.settings = settings := by
  induction hrun with
  | nil => rfl
  | snoc _ hmove ih =>
    refine Eq.trans ?_ ih
    cases step_of_move hmove with
    | mark ids => exact settings_foldl_requestCancel _ ids
    | _ => rfl

end Reflex.Scheduler
