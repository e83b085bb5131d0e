import Reflex.Proofs.Scheduler.Order

/-!
# What a Move Does to an Instance

A move is made by one instance, or is a request from outside. An instance that makes a move
passes into another phase. The other instances stay as they are, apart from requests for their
cancellation and from calls to those that wait.

## Main definitions

- `Scheduler.Acts`: what a move does to the instance that makes it.
- `Scheduler.StandsBy`: what it does to any other instance.

## Main statements

- `Scheduler.change_of_step`: every instance is new, acts or stands by.
- `Scheduler.change_of_run`: the same for the last move of a run.
- `Scheduler.exists_change_of_move`: what it leaves of an instance that was there before.
-/

namespace Reflex.Scheduler

/-- An instance that has ended. -/
def Instance.ended (i : Instance) (id : Nat) (state : InstanceState) (started : Bool)
    (outcomes : List ActionOutcome) : Instance :=
  { i with state, phase := i.exit (i.report id state started outcomes) }

/-- An instance that has ended with an action that did not complete. -/
def Instance.stopped (i : Instance) (id : Nat) (outcomes : List ActionOutcome) (attempt : Nat)
    (state : InstanceState) (action : ActionState) (error : Option String) : Instance :=
  i.ended id state true
    (outcomes ++ [{ index := outcomes.length, type := i.job.actionType outcomes.length
                    state := action, attempts := attempt, error }])

/-- What a move does to the instance that makes it. -/
inductive Acts (s : Scheduler) (id : Nat) (i : Instance) : Move → Reply → Instance → Prop
  -- It ends before it starts.
  | forgo (hphase : i.phase = .ready) (hcancelled : i.cancelled = true) :
      Acts s id i (.start id) (.effects []) (i.ended id .cancelled false [])
  -- It starts.
  | start (hphase : i.phase = .ready) (hcancelled : i.cancelled = false) :
      Acts s id i (.start id) (.effects []) { i with state := .running, phase := .proceeding [] }
  -- It ends because all its actions completed.
  | complete {outcomes} (hphase : i.phase = .proceeding outcomes)
      (hlength : i.job.rule.actions.length ≤ outcomes.length) :
      Acts s id i (.proceed id) (.effects []) (i.ended id .completed true outcomes)
  -- It ends between two actions.
  | interrupt {outcomes} (hphase : i.phase = .proceeding outcomes)
      (hlength : outcomes.length < i.job.rule.actions.length) (hcancelled : i.cancelled = true) :
      Acts s id i (.proceed id) (.effects []) (i.ended id .cancelled true outcomes)
  -- It invokes its next action.
  | invoke {outcomes} (hphase : i.phase = .proceeding outcomes)
      (hlength : outcomes.length < i.job.rule.actions.length)
      (hcancelled : i.cancelled = false) :
      Acts s id i (.proceed id) (.effects [.invoke id outcomes.length 1])
        { i with phase := .attempting outcomes 1 false }
  -- An invocation ends well.
  | succeed {outcomes attempt late} (hphase : i.phase = .attempting outcomes attempt late) :
      Acts s id i (.answer id .completed) (.effects [])
        { i with
          phase := .proceeding (outcomes ++
            [{ index := outcomes.length, type := i.job.actionType outcomes.length
               state := .completed, attempts := attempt }]) }
  -- An invocation ends as cancelled.
  | stopCancelled {outcomes attempt late} (hphase : i.phase = .attempting outcomes attempt late) :
      Acts s id i (.answer id (.error .cancelled)) (.effects [])
        (i.stopped id outcomes attempt .cancelled .cancelled
          (if late then (s.timeoutMs? i.job outcomes.length).map
            (deadlineMessage (i.job.actionType outcomes.length)) else none))
  -- An invocation fails for the last time.
  | stopFailed {outcomes attempt late result e}
      (hphase : i.phase = .attempting outcomes attempt late)
      (herror : errorOf? (i.job.actionType outcomes.length) result = some e)
      (hne : e ≠ .cancelled)
      (hlast : i.job.retry.maxAttempts ≤ attempt ∨ i.cancelled = true) :
      Acts s id i (.answer id result) (.effects [])
        (i.stopped id outcomes attempt .failed .failed (some e.message))
  -- An invocation fails and is to be repeated.
  | backOff {outcomes attempt late result e}
      (hphase : i.phase = .attempting outcomes attempt late)
      (herror : errorOf? (i.job.actionType outcomes.length) result = some e)
      (hne : e ≠ .cancelled)
      (hmore : attempt < i.job.retry.maxAttempts) (hcancelled : i.cancelled = false) :
      Acts s id i (.answer id result) (.effects [])
        { i with phase := .backingOff outcomes attempt }
  -- The deadline of its invocation passes.
  | expire {outcomes attempt ms} (hphase : i.phase = .attempting outcomes attempt false)
      (hlimit : s.timeoutMs? i.job outcomes.length = some ms) :
      Acts s id i (.expire id) (.effects [])
        { i with phase := .attempting outcomes attempt true }
  -- It invokes an action again.
  | resume {outcomes attempt} (hphase : i.phase = .backingOff outcomes attempt) :
      Acts s id i (.resume id) (.effects [.invoke id outcomes.length (attempt + 1)])
        { i with phase := .attempting outcomes (attempt + 1) false }
  -- It ends in the pause after a failed invocation.
  | abandon {outcomes attempt} (hphase : i.phase = .backingOff outcomes attempt)
      (hcancelled : i.cancelled = true) :
      Acts s id i (.abandon id) (.effects [])
        (i.stopped id outcomes attempt .cancelled .cancelled none)
  -- It hands its rule on.
  | release {report next} (hphase : i.phase = .leaving report) :
      Acts s id i (.release id) (.handed next) { i with phase := .reporting report next }
  -- Its report goes out.
  | publish {report next} (hphase : i.phase = .reporting report next) :
      Acts s id i (.publish id) (.effects [.deliver report])
        { i with phase := .reported report }

/-- What a move does to an instance that does not make it. -/
structure StandsBy (i i' : Instance) : Prop where
  /-- The job stays. -/
  job : i'.job = i.job
  /-- A request for cancellation is not taken back. -/
  cancelled : i.cancelled = true → i'.cancelled = true
  /-- The state that observers see stays. -/
  state : i'.state = i.state
  /-- The phase stays, unless the instance waits. -/
  phase : i'.phase = i.phase ∨ i.phase = .queued ∧ i'.phase = .called ∨
    i.phase = .called ∧ i'.phase = .ready

theorem StandsBy.refl (i : Instance) : StandsBy i i := ⟨rfl, id, rfl, .inl rfl⟩

/-- How the instance of a number came to be what it is after a move. -/
inductive Change (s : Scheduler) (id : Nat) (m : Move) (reply : Reply) (i' : Instance) : Prop
  -- It was accepted.
  | join (hnew : s.instance? id = none) (hagent : m.agent? = none)
      (hphase : i'.phase = .ready ∨ i'.phase = .queued) (hstate : i'.state = .pending)
  -- It stood by.
  | watch {i : Instance} (hi : s.instance? id = some i) (hagent : m.agent? ≠ some id)
      (hstands : StandsBy i i')
  -- It made the move.
  | act {i : Instance} (hi : s.instance? id = some i) (hacts : Acts s id i m reply i')

section Change

variable {log : Log} {s s' : Scheduler} {m : Move} {reply : Reply} {id j : Nat} {i i' : Instance}

/-- The instance to which a rule is handed on waits for it. -/
theorem Orderly.exists_next_of_slot (h : Orderly log s) {report : Report} {next : Nat}
    {queue : List Nat} (hi : s.instance? id = some i) (hphase : i.phase = .leaving report)
    (hslot : s.slots i.job.rule.id = some (next :: queue)) :
    ∃ k, s.instance? next = some k ∧ k.phase = .queued ∧ next ≠ id := by
  have hwaiting := h.waiting_of_slot (job?_of_instance? hi) (standing?_of_instance? hi hphase)
    hslot
  obtain ⟨k, hk, hstanding⟩ := exists_of_standing? hwaiting
  have hqueued := Phase.standing_eq_waiting.1 hstanding
  refine ⟨k, hk, hqueued, ?_⟩
  rintro rfl
  obtain rfl := Option.some.inj (hi.symm.trans hk)
  rw [hphase] at hqueued
  cases hqueued

/-- The instance that a report lets start was called. -/
theorem Orderly.exists_next_of_reporting (h : Orderly log s) {report : Report} {next : Nat}
    (hi : s.instance? id = some i) (hphase : i.phase = .reporting report (some next)) :
    ∃ k, s.instance? next = some k ∧ k.phase = .called ∧ next ≠ id := by
  have hcalled := (h.paired.called next).2 ⟨id, standing?_of_instance? hi hphase⟩
  obtain ⟨k, hk, hstanding⟩ := exists_of_standing? hcalled
  have hphase' := Phase.standing_eq_called.1 hstanding
  refine ⟨k, hk, hphase', ?_⟩
  rintro rfl
  obtain rfl := Option.some.inj (hi.symm.trans hk)
  rw [hphase] at hphase'
  cases hphase'

/-- A change of the instance that makes the move is the only one. -/
private theorem change_of_modify {f : Instance → Instance}
    (hlook : s'.instance? j = if id = j then (s.instance? j).map f else s.instance? j)
    (hi : s.instance? id = some i) (hagent : m.agent? = some id)
    (hacts : Acts s id i m reply (f i)) (hj : s'.instance? j = some i') :
    Change s j m reply i' := by
  rw [hlook] at hj
  by_cases hid : id = j
  · subst hid
    rw [if_pos rfl, hi, Option.map_some, Option.some.injEq] at hj
    exact .act hi (hj ▸ hacts)
  · rw [if_neg hid] at hj
    exact .watch hj (by rw [hagent]; simpa using hid) (.refl i')

/-- A move that passes a turn on changes the instance that makes it and the one behind it. -/
private theorem change_of_modify_two {next : Nat} {k : Instance} {new theirs : Phase}
    (hlook : s'.instance? j =
      if id = j then (s.instance? j).map fun i => { i with phase := new }
      else if next = j then (s.instance? j).map fun i => { i with phase := theirs }
      else s.instance? j)
    (hi : s.instance? id = some i) (hagent : m.agent? = some id)
    (hacts : Acts s id i m reply { i with phase := new }) (hk : s.instance? next = some k)
    (hstands : StandsBy k { k with phase := theirs }) (hj : s'.instance? j = some i') :
    Change s j m reply i' := by
  rw [hlook] at hj
  by_cases hid : id = j
  · subst hid
    rw [if_pos rfl, hi, Option.map_some, Option.some.injEq] at hj
    exact .act hi (hj ▸ hacts)
  have hother : m.agent? ≠ some j := by
    rw [hagent]
    simpa using hid
  rw [if_neg hid] at hj
  by_cases hnext : next = j
  · subst hnext
    rw [if_pos rfl, hk, Option.map_some, Option.some.injEq] at hj
    exact .watch hk hother (hj ▸ hstands)
  · rw [if_neg hnext] at hj
    exact .watch hj hother (.refl i')

/-- An instance that was accepted is the only change. -/
private theorem change_of_accept {job : Job} {cancelled : Bool} {phase : Phase}
    (hlook : s'.instance? j =
      if j = s.instances.length then some { job, cancelled, phase } else s.instance? j)
    (hphase : phase = .ready ∨ phase = .queued) (hagent : m.agent? = none)
    (hj : s'.instance? j = some i') : Change s j m reply i' := by
  rw [hlook] at hj
  by_cases hid : j = s.instances.length
  · subst hid
    rw [if_pos rfl, Option.some.injEq] at hj
    exact .join (by simp [instance?]) hagent (by rw [← hj]; exact hphase) (by rw [← hj])
  · rw [if_neg hid] at hj
    exact .watch hj (by simp [hagent]) (.refl i')

/-- Every instance is new, acts or stands by. -/
theorem change_of_step (h : Orderly log s) (hstep : Step s m s' reply)
    (hj : s'.instance? j = some i') : Change s j m reply i' := by
  cases hstep with
  | refuse | drop | close => exact .watch hj (by simp [Move.agent?]) (.refl i')
  | accept => exact change_of_accept (instance?_accept ..) (.inl rfl) rfl hj
  | take => exact change_of_accept (instance?_accept ..) (.inl rfl) rfl hj
  | enqueue => exact change_of_accept (instance?_accept ..) (.inr rfl) rfl hj
  | mark ids hagent _ =>
    rw [instance?_foldl_requestCancel, Option.map_eq_some_iff] at hj
    obtain ⟨i, hi, rfl⟩ := hj
    exact .watch hi (by simp [hagent]) ⟨rfl, by simp +contextual, rfl, .inl rfl⟩
  | forgo hi hphase hcancelled =>
    exact change_of_modify (instance?_finish ..) hi rfl (.forgo hphase hcancelled) hj
  | start hi hphase hcancelled =>
    exact change_of_modify (instance?_modify ..) hi rfl (.start hphase hcancelled) hj
  | complete hi hphase hlength =>
    exact change_of_modify (instance?_finish ..) hi rfl (.complete hphase hlength) hj
  | interrupt hi hphase hlength hcancelled =>
    exact change_of_modify (instance?_finish ..) hi rfl (.interrupt hphase hlength hcancelled) hj
  | invoke hi hphase hlength hcancelled =>
    exact change_of_modify (instance?_modify ..) hi rfl (.invoke hphase hlength hcancelled) hj
  | succeed hi hphase =>
    exact change_of_modify (instance?_modify ..) hi rfl (.succeed hphase) hj
  | stopCancelled hi hphase =>
    exact change_of_modify (instance?_finish ..) hi rfl (.stopCancelled hphase) hj
  | stopFailed hi hphase herror hne hlast =>
    exact change_of_modify (instance?_finish ..) hi rfl (.stopFailed hphase herror hne hlast) hj
  | backOff hi hphase herror hne hmore hcancelled =>
    exact change_of_modify (instance?_modify ..) hi rfl
      (.backOff hphase herror hne hmore hcancelled) hj
  | expire hi hphase hlimit =>
    exact change_of_modify (instance?_modify ..) hi rfl (.expire hphase hlimit) hj
  | resume hi hphase =>
    exact change_of_modify (instance?_modify ..) hi rfl (.resume hphase) hj
  | abandon hi hphase hcancelled =>
    exact change_of_modify (instance?_finish ..) hi rfl (.abandon hphase hcancelled) hj
  | free hi hphase _ =>
    exact change_of_modify (instance?_modify ..) hi rfl (.release hphase) hj
  | retire hi hphase =>
    exact change_of_modify (instance?_modify ..) hi rfl (.publish hphase) hj
  | @handOn id i report next queue hi hphase hslot =>
    obtain ⟨k, hk, hqueued, hne⟩ := h.exists_next_of_slot hi hphase hslot
    have hstands : StandsBy k { k with phase := .called } :=
      ⟨rfl, fun hc => hc, rfl, .inr (.inl ⟨hqueued, rfl⟩)⟩
    refine change_of_modify_two ?_ hi rfl (.release hphase) hk hstands hj
    simp only [setPhase, instance?_modify, instance?_setSlot]
    by_cases hid : id = j
    · subst hid
      simp [hne]
    · simp [hid]
  | @callUp id i report next hi hphase =>
    obtain ⟨k, hk, hphase', hne⟩ := h.exists_next_of_reporting hi hphase
    have hstands : StandsBy k { k with phase := .ready } :=
      ⟨rfl, fun hc => hc, rfl, .inr (.inr ⟨hphase', rfl⟩)⟩
    refine change_of_modify_two ?_ hi rfl (.publish hphase) hk hstands hj
    simp only [setPhase, instance?_modify]
    by_cases hid : id = j
    · subst hid
      simp [hne]
    · simp [hid]

/-- The last move of a run is one of the same kinds. -/
theorem change_of_run {settings : Settings} (hrun : Run settings log s)
    (hmove : s.move? m = some (s', reply)) (hj : s'.instance? j = some i') :
    Change s j m reply i' :=
  change_of_step (orderly_of_run hrun) (step_of_move hmove) hj

/-- Moves of instances keep the number of instances. -/
theorem length_of_step (hstep : Step s m s' reply) (hagent : m.agent? = some id) :
    s'.instances.length = s.instances.length := by
  cases hstep with
  | refuse | drop | accept | take | enqueue | close => cases hagent
  | mark _ hnone _ =>
    rw [hnone] at hagent
    cases hagent
  | _ => simp [stop, setPhase]

/-- Whoever makes a move has work in progress. -/
theorem exists_agent (hstep : Step s m s' reply) (hagent : m.agent? = some id) :
    ∃ i, s.instance? id = some i ∧ i.isLive = true := by
  cases hstep with
  | refuse | drop | accept | take | enqueue | close => cases hagent
  | mark _ hnone _ =>
    rw [hnone] at hagent
    cases hagent
  | forgo hi hphase | start hi hphase | complete hi hphase | interrupt hi hphase
  | invoke hi hphase | succeed hi hphase | stopCancelled hi hphase | stopFailed hi hphase
  | backOff hi hphase | expire hi hphase | resume hi hphase | abandon hi hphase
  | handOn hi hphase | free hi hphase | callUp hi hphase | retire hi hphase =>
    obtain rfl := Option.some.inj hagent
    exact ⟨_, hi, by rw [Instance.isLive, hphase]⟩

/-- No instance disappears. -/
theorem length_le_of_step (hstep : Step s m s' reply) :
    s.instances.length ≤ s'.instances.length := by
  cases hstep with
  | mark ids => exact Nat.le_of_eq (length_foldl_requestCancel s ids).symm
  | accept | take | enqueue => simp [accept, setSlot]
  | _ => simp [stop, setPhase, close]

/-- An instance that exists goes on to exist. -/
theorem exists_instance_of_step (hstep : Step s m s' reply) (hi : s.instance? id = some i) :
    ∃ i', s'.instance? id = some i' := by
  rw [← Option.isSome_iff_exists, instance?_isSome]
  exact Nat.lt_of_lt_of_le (lt_of_instance? s id hi) (length_le_of_step hstep)

/-- An instance goes on to exist: it acts or stands by. -/
theorem exists_change_of_move {settings : Settings} (hrun : Run settings log s)
    (hmove : s.move? m = some (s', reply)) (hi : s.instance? id = some i) :
    ∃ i', s'.instance? id = some i' ∧
      (m.agent? ≠ some id ∧ StandsBy i i' ∨ Acts s id i m reply i') := by
  obtain ⟨i', hi'⟩ := exists_instance_of_step (step_of_move hmove) hi
  refine ⟨i', hi', ?_⟩
  rcases change_of_run hrun hmove hi' with ⟨hnew, -, -⟩ | @⟨k, hk, hagent, hstands⟩ |
    @⟨k, hk, hacts⟩
  · rw [hi] at hnew
    cases hnew
  · obtain rfl := Option.some.inj (hi.symm.trans hk)
    exact .inl ⟨hagent, hstands⟩
  · obtain rfl := Option.some.inj (hi.symm.trans hk)
    exact .inr hacts

end Change

end Reflex.Scheduler
