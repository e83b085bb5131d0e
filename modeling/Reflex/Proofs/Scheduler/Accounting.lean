import Reflex.Proofs.Scheduler.Faithful

/-!
# What Becomes of Accepted Instances

An instance that was accepted is active until it has ended. Its state passes from pending to
running and on to a final one, or from pending to cancelled, and its one report goes to the
audience and to its owner. At rest nothing is left active, and every instance has been reported.

## Main definitions

- `Scheduler.Log.admissions`: the instances that were accepted.
- `Scheduler.isUnderWay`: an instance has not ended.
- `Scheduler.received?`: the report that the owner of an instance has.
- `InstanceState.Next`: the states that observers see one after the other.
- `Scheduler.Accounted`: what is active, what was reported, and to whom.
- `Scheduler.Settled`: nothing is left active, and every instance has been reported.

## Main statements

- `Scheduler.active_eq_of_run`: the active instances are the accepted ones that have not ended.
- `Scheduler.state_of_move`: how the state of an instance passes on.
- `Scheduler.settled_of_isQuiet`: at rest every instance has been reported once.
- `Scheduler.accounted_of_run`: no accepted instance is ever lost.
-/

namespace Reflex

/-- What observers see an instance pass from and to. -/
inductive InstanceState.Next : InstanceState → InstanceState → Prop
  -- It starts.
  | start : Next .pending .running
  -- It is cancelled before it starts.
  | forgo : Next .pending .cancelled
  -- It ends.
  | finish {state : InstanceState} (hterminal : state.isTerminal = true) : Next .running state

namespace Scheduler

/-! ## What observers see -/

/-- Whether the execution of an instance in the phase has ended. -/
def Phase.isOver : Phase → Bool
  | .leaving _ | .reporting .. | .reported _ => true
  | .queued | .called | .ready | .proceeding _ | .attempting .. | .backingOff .. => false

/-- The state that observers see of an instance in the phase. -/
def Phase.state : Phase → InstanceState
  | .queued | .called | .ready => .pending
  | .proceeding _ | .attempting .. | .backingOff .. => .running
  | .leaving report | .reporting report _ | .reported report => report.state

/-- Observers see how far the instance is, and whether it has ended. -/
structure Instance.Shown (i : Instance) : Prop where
  /-- The state is that of the phase. -/
  state : i.state = i.phase.state
  /-- The state of an instance that has ended is final. -/
  terminal : i.state.isTerminal = i.phase.isOver

section State

variable {settings : Settings} {log : Log} {s s' : Scheduler} {m : Move} {reply : Reply} {id : Nat}
  {i i' : Instance}

theorem Phase.isOver_exit (i : Instance) (report : Report) : (i.exit report).isOver = true := by
  unfold Instance.exit
  split <;> rfl

theorem Phase.state_exit (i : Instance) (report : Report) :
    (i.exit report).state = report.state := by
  unfold Instance.exit
  split <;> rfl

/-- An instance that has ended shows its final state. -/
theorem shown_ended {state : InstanceState} (hterminal : state.isTerminal = true)
    (started : Bool) (outcomes : List ActionOutcome) :
    (i.ended id state started outcomes).Shown where
  state := (Phase.state_exit i (i.report id state started outcomes)).symm
  terminal := hterminal.trans (Phase.isOver_exit i (i.report id state started outcomes)).symm

/-- Whoever acts goes on to show how far it is, and what it shows passes on. -/
theorem Instance.Shown.acts (h : i.Shown) (hacts : Acts s id i m reply i') :
    i'.Shown ∧ (i'.state = i.state ∨ i.state.Next i'.state) := by
  have hstate := h.state
  have hterminal := h.terminal
  cases hacts with
  | forgo hphase _ =>
    rw [hphase] at hstate
    exact ⟨shown_ended rfl .., .inr (hstate ▸ .forgo)⟩
  | start hphase _ =>
    rw [hphase] at hstate
    exact ⟨⟨rfl, rfl⟩, .inr (hstate ▸ .start)⟩
  | complete hphase _ | interrupt hphase _ _ | stopCancelled hphase
  | stopFailed hphase _ _ _ | abandon hphase _ =>
    rw [hphase] at hstate
    exact ⟨shown_ended rfl .., .inr (hstate ▸ .finish rfl)⟩
  | invoke hphase _ _ | succeed hphase | backOff hphase _ _ _ _ | expire hphase _
  | resume hphase | release hphase | publish hphase =>
    rw [hphase] at hstate hterminal
    exact ⟨⟨hstate, hterminal⟩, .inl rfl⟩

/-- Whoever stands by goes on to show how far it is. -/
theorem Instance.Shown.standsBy (h : i.Shown) (hstands : StandsBy i i') : i'.Shown := by
  obtain ⟨hstate, hterminal⟩ := h
  rw [← hstands.state] at hstate hterminal
  rcases hstands.phase with hphase | ⟨hold, hnew⟩ | ⟨hold, hnew⟩
  · exact ⟨hphase ▸ hstate, hphase ▸ hterminal⟩
  all_goals
    rw [hold] at hstate hterminal
    exact ⟨hnew ▸ hstate, hnew ▸ hterminal⟩

/-- In every run every instance shows how far it is. -/
theorem shown_of_run (hrun : Run settings log s) (hi : s.instance? id = some i) : i.Shown := by
  induction hrun generalizing i with
  | nil => simp [instance?] at hi
  | snoc hrun hmove ih =>
    rcases change_of_run hrun hmove hi with ⟨-, -, hphase, hstate⟩ | @⟨k, hk, -, hstands⟩ |
      @⟨k, hk, hacts⟩
    · rcases hphase with hphase | hphase <;>
        exact ⟨by rw [hphase, hstate]; rfl, by rw [hphase, hstate]; rfl⟩
    · exact (ih hk).standsBy hstands
    · exact ((ih hk).acts hacts).1

/-- A move leaves the state of an instance, or passes it on; a new instance is pending. -/
theorem state_of_move (hrun : Run settings log s) (hmove : s.move? m = some (s', reply))
    (hi' : s'.instance? id = some i') :
    (s.instance? id = none ∧ i'.state = .pending) ∨
      ∃ i, s.instance? id = some i ∧ (i'.state = i.state ∨ i.state.Next i'.state) := by
  rcases change_of_run hrun hmove hi' with ⟨hnew, -, -, hstate⟩ | @⟨i, hi, -, hstands⟩ |
    @⟨i, hi, hacts⟩
  · exact .inl ⟨hnew, hstate⟩
  · exact .inr ⟨i, hi, .inl hstands.state⟩
  · exact .inr ⟨i, hi, ((shown_of_run hrun hi).acts hacts).2⟩

end State

/-! ## Active instances -/

/-- Whether the execution of the instance of a number has not ended. -/
def isUnderWay (s : Scheduler) (id : Nat) : Bool :=
  (s.instance? id).any fun i => !i.phase.isOver

/-- The instance that is accepted. -/
def Occurrence.admitted? : Occurrence → Option Nat
  | ⟨.submit .., .submission (.started id)⟩ | ⟨.submit .., .submission (.queued id)⟩ => some id
  | _ => none

/-- The instances that were accepted, in order. -/
def Log.admissions (log : Log) : List Nat :=
  log.filterMap Occurrence.admitted?

/-- How an occurrence changes which instances are active. -/
inductive Turnover (s s' : Scheduler) (o : Occurrence) : Prop
  -- Not at all.
  | stay (hadmitted : o.admitted? = none) (hlength : s'.instances.length = s.instances.length)
      (hactive : s'.active = s.active) (hway : ∀ j, s'.isUnderWay j = s.isUnderWay j)
  -- An instance is accepted.
  | join (hadmitted : o.admitted? = some s.instances.length)
      (hlength : s'.instances.length = s.instances.length + 1)
      (hactive : s'.active = s.active ++ [s.instances.length])
      (hway : ∀ j, s'.isUnderWay j = (s.isUnderWay j || j == s.instances.length))
  -- An instance ends.
  | leave (id : Nat) (hadmitted : o.admitted? = none)
      (hlength : s'.instances.length = s.instances.length)
      (hactive : s'.active = s.active.erase id)
      (hway : ∀ j, s'.isUnderWay j = (s.isUnderWay j && j != id))

section Active

variable {settings : Settings} {log : Log} {s s' : Scheduler} {m : Move} {reply : Reply} {id : Nat}
  {i : Instance}

/-- A change that neither ends an instance nor revives it. -/
theorem isUnderWay_modify {f : Instance → Instance} (hi : s.instance? id = some i)
    (hf : (f i).phase.isOver = i.phase.isOver) (j : Nat) :
    (s.modify id f).isUnderWay j = s.isUnderWay j := by
  simp only [isUnderWay, instance?_modify]
  by_cases hid : id = j
  · subst hid
    simp [hi, hf]
  · rw [if_neg hid]

/-- The numbers that are not in use are those of nobody under way. -/
theorem isUnderWay_accept (job : Job) (cancelled : Bool) {phase : Phase}
    (hphase : phase.isOver = false) (j : Nat) :
    (s.accept job cancelled phase).isUnderWay j =
      (s.isUnderWay j || j == s.instances.length) := by
  simp only [isUnderWay, instance?_accept]
  by_cases hj : j = s.instances.length
  · subst hj
    simp [hphase]
  · simp [hj]

theorem isUnderWay_finish (i : Instance) (state : InstanceState) (started : Bool)
    (outcomes : List ActionOutcome) (j : Nat) :
    (s.finish id i state started outcomes).isUnderWay j = (s.isUnderWay j && j != id) := by
  simp only [isUnderWay, instance?_finish]
  by_cases hid : id = j
  · subst hid
    cases s.instance? id <;> simp [Phase.isOver_exit]
  · have hne : (j != id) = true := by simpa using Ne.symm hid
    rw [if_neg hid, hne, Bool.and_true]

/-- Every move leaves the active instances, adds the one that it accepts, or removes the one that
it ends. -/
theorem turnover_of_step (horderly : Orderly log s) (hstep : Step s m s' reply) :
    Turnover s s' ⟨m, reply⟩ := by
  cases hstep with
  | refuse | drop | close => exact .stay rfl rfl rfl fun _ => rfl
  | mark ids hagent hreply =>
    refine .stay ?_ (length_foldl_requestCancel s ids) (active_foldl_requestCancel s ids)
      fun j => ?_
    · rcases hreply with rfl | ⟨active, rfl⟩ <;> cases m <;> rfl
    · simp only [isUnderWay, instance?_foldl_requestCancel]
      cases s.instance? j <;> rfl
  | accept => exact .join rfl (by simp [Scheduler.accept]) rfl (isUnderWay_accept _ _ rfl)
  | take => exact .join rfl (by simp [Scheduler.accept, setSlot]) rfl (isUnderWay_accept _ _ rfl)
  | enqueue =>
    exact .join rfl (by simp [Scheduler.accept, setSlot]) rfl (isUnderWay_accept _ _ rfl)
  | forgo | complete | interrupt | stopCancelled | stopFailed | abandon =>
    exact .leave _ rfl (length_finish ..) rfl fun j => isUnderWay_finish _ _ _ _ j
  | start hi hphase _ | invoke hi hphase _ _ | succeed hi hphase | backOff hi hphase _ _ _ _
  | expire hi hphase _ | resume hi hphase | free hi hphase _ | retire hi hphase =>
    exact .stay rfl (length_modify ..) rfl (isUnderWay_modify hi (by rw [hphase]; rfl))
  | @handOn id i report next queue hi hphase hslot =>
    obtain ⟨k, hk, hqueued, hne⟩ := horderly.exists_next_of_slot hi hphase hslot
    refine .stay rfl (by simp [setPhase]) rfl fun j => ?_
    have hi' : ((s.setSlot i.job.rule.id (some queue)).setPhase next .called).instance? id =
        some i := by
      simp [setPhase, hne, hi]
    exact (isUnderWay_modify hi' (by rw [hphase]; rfl) j).trans
      (isUnderWay_modify (s := s.setSlot i.job.rule.id (some queue)) hk (by rw [hqueued]; rfl) j)
  | @callUp id i report next hi hphase =>
    obtain ⟨k, hk, hcalled, hne⟩ := horderly.exists_next_of_reporting hi hphase
    refine .stay rfl (by simp [setPhase]) rfl fun j => ?_
    have hk' : (s.setPhase id (.reported report)).instance? next = some k := by
      simp [setPhase, hne.symm, hk]
    exact (isUnderWay_modify hk' (by rw [hcalled]; rfl) j).trans
      (isUnderWay_modify hi (by rw [hphase]; rfl) j)

theorem admissions_snoc (log : Log) (o : Occurrence) :
    Log.admissions (log ++ [o]) = log.admissions ++ o.admitted?.toList := by
  simp only [Log.admissions, List.filterMap_append, List.filterMap_cons, List.filterMap_nil]
  cases o.admitted? <;> rfl

/-- The accepted instances have the numbers from zero on. -/
theorem admissions_of_run (hrun : Run settings log s) :
    log.admissions = List.range s.instances.length := by
  induction hrun with
  | nil => rfl
  | snoc hrun hmove ih =>
    rw [admissions_snoc]
    rcases turnover_of_step (orderly_of_run hrun) (step_of_move hmove) with
      ⟨hadmitted, hlength, -, -⟩ | ⟨hadmitted, hlength, -, -⟩ | ⟨-, hadmitted, hlength, -, -⟩
    · rw [hadmitted, hlength, ih, Option.toList_none, List.append_nil]
    · rw [hadmitted, hlength, ih, Option.toList_some, List.range_succ]
    · rw [hadmitted, hlength, ih, Option.toList_none, List.append_nil]

/-- The active instances are the accepted ones that have not ended. -/
theorem active_eq_of_run (hrun : Run settings log s) :
    s.active = log.admissions.filter s.isUnderWay := by
  induction hrun with
  | nil => rfl
  | @snoc log s s' m reply hrun hmove ih =>
    have hadmissions := admissions_of_run hrun
    rw [admissions_snoc]
    rcases turnover_of_step (orderly_of_run hrun) (step_of_move hmove) with
      ⟨hadmitted, -, hactive, hway⟩ | ⟨hadmitted, -, hactive, hway⟩ |
      ⟨id, hadmitted, -, hactive, hway⟩
    · rw [hadmitted, hactive, ih, Option.toList_none, List.append_nil]
      exact List.filter_congr fun j _ => (hway j).symm
    · rw [hadmitted, hactive, ih, Option.toList_some, List.filter_append]
      congr 1
      · refine List.filter_congr fun j hj => ?_
        have hlt : j < s.instances.length := by simpa [hadmissions] using hj
        have hne : (j == s.instances.length) = false := by simpa using Nat.ne_of_lt hlt
        rw [hway, hne, Bool.or_false]
      · simp [hway]
    · have hdistinct : (log.admissions.filter s.isUnderWay).Nodup := by
        rw [hadmissions]
        exact List.nodup_range.filter _
      rw [hadmitted, hactive, ih, Option.toList_none, List.append_nil,
        hdistinct.erase_eq_filter, List.filter_filter]
      refine List.filter_congr fun j _ => ?_
      rw [hway, Bool.and_comm]

end Active

/-! ## Reports -/

/-- The report that the owner of an instance has. -/
def received? (s : Scheduler) (id : Nat) : Option Report := do
  match (← s.instance? id).phase with
  | .reported report => some report
  | _ => none

section Report

variable {settings : Settings} {log : Log} {s s' : Scheduler} {m : Move} {reply : Reply} {id : Nat}
  {report : Report}

theorem received?_eq_some : s.received? id = some report ↔
    ∃ i, s.instance? id = some i ∧ i.phase = .reported report := by
  rw [received?]
  cases s.instance? id with
  | none => simp
  | some i => cases hphase : i.phase <;> simp [hphase]

/-- The owner of an instance has the report that went out for it. -/
theorem received?_of_run (hrun : Run settings log s) :
    s.received? id = some report ↔ report ∈ log.reports ∧ report.id = id := by
  rw [received?_eq_some]
  constructor
  · rintro ⟨i, hi, hphase⟩
    have haccount := (account_of_run hrun id).2 i hi
    rw [Account, hphase] at haccount
    exact ⟨mem_reports_of_reported hrun hi hphase, haccount.header.1⟩
  · rintro ⟨hreport, rfl⟩
    exact reported_of_mem_reports hrun hreport

/-- A move sends out at most one report. -/
theorem nodup_reports_of_step (hstep : Step s m s' reply) :
    ((Occurrence.reports ⟨m, reply⟩).map (·.id)).Nodup := by
  cases hstep with
  | mark _ _ hreply => rcases hreply with rfl | ⟨active, rfl⟩ <;> exact .nil
  | callUp | retire => exact List.nodup_singleton _
  | _ => exact .nil

/-- No instance is reported twice. -/
theorem nodup_reports_of_run (hrun : Run settings log s) : (log.reports.map (·.id)).Nodup := by
  induction hrun with
  | nil => exact .nil
  | @snoc log s s' m reply hrun hmove ih =>
    have hstep := step_of_move hmove
    rw [Log.reports, List.flatMap_append, List.flatMap_singleton, List.map_append]
    refine ih.append (nodup_reports_of_step hstep) ?_
    intro id hold hnew
    obtain ⟨before, hbefore, rfl⟩ := List.mem_map.1 hold
    obtain ⟨after, hafter, hid⟩ := List.mem_map.1 hnew
    -- what was reported before is not about to report
    obtain ⟨i, hi, hphase⟩ := reported_of_mem_reports hrun hbefore
    obtain ⟨j, k, next, rfl, hk, hreporting⟩ := reporting_of_mem_reports hstep hafter
    have haccount := (account_of_run hrun j).2 k hk
    rw [Account, hreporting] at haccount
    obtain rfl : j = before.id := haccount.header.1.symm.trans hid
    obtain rfl := Option.some.inj (hi.symm.trans hk)
    rw [hphase] at hreporting
    cases hreporting

end Report

/-! ## Runs -/

/-- What is active, what was reported, and to whom. -/
structure Accounted (log : Log) (s : Scheduler) : Prop where
  /-- Every instance was accepted, and none was accepted twice. -/
  accepted : log.admissions = List.range s.instances.length
  /-- The active instances are the accepted ones that have not ended. -/
  active : s.active = log.admissions.filter s.isUnderWay
  /-- It is those that can be cancelled. -/
  cancellable : ∀ id, (s.cancel id).2 = true ↔ id ∈ log.admissions ∧ s.isUnderWay id = true
  /-- It is those that are counted. -/
  counted : s.activeCount = log.admissions.countP s.isUnderWay
  /-- No instance is reported twice. -/
  single : (log.reports.map (·.id)).Nodup
  /-- The owner of an instance has the report that went out to everybody, and no other. -/
  received : ∀ id report, s.received? id = some report ↔ report ∈ log.reports ∧ report.id = id
  /-- The state of an instance is final as soon as it has ended. -/
  terminal : ∀ id i, s.instance? id = some i → i.state.isTerminal = !s.isUnderWay id
  /-- A report is that of an accepted instance, and has its final state. -/
  reported : ∀ report ∈ log.reports, report.id ∈ log.admissions ∧
    ∃ i, s.instance? report.id = some i ∧ i.state = report.state ∧ report.state.isTerminal = true

/-- Nothing is left active or taken, and every accepted instance has been reported once. -/
structure Settled (log : Log) (s : Scheduler) : Prop where
  /-- No instance is active. -/
  idle : s.active = []
  /-- No exclusive rule is taken. -/
  free : ∀ rule, s.slots rule = none
  /-- Every accepted instance has its report. -/
  reported : (log.reports.map (·.id)).Perm log.admissions

section Run

variable {settings : Settings} {log : Log} {s s' : Scheduler} {m : Move} {reply : Reply} {id : Nat}
  {i : Instance} {report : Report}

/-- An instance exists exactly if it was accepted. -/
theorem mem_admissions_iff (hrun : Run settings log s) :
    id ∈ log.admissions ↔ ∃ i, s.instance? id = some i := by
  rw [admissions_of_run hrun, List.mem_range, ← instance?_isSome, Option.isSome_iff_exists]

/-- The request to cancel an instance is granted exactly while it is active. -/
theorem cancel_eq_true_iff : (s.cancel id).2 = true ↔ id ∈ s.active := by
  rw [cancel]
  split
  next hactive => simpa using hactive
  next hactive => simpa using hactive

/-- An instance whose report is out shows the state that the report tells. -/
theorem exists_state_of_mem_reports (hrun : Run settings log s) (hreport : report ∈ log.reports) :
    ∃ i, s.instance? report.id = some i ∧ i.state = report.state ∧
      report.state.isTerminal = true := by
  obtain ⟨i, hi, hphase⟩ := reported_of_mem_reports hrun hreport
  obtain ⟨hstate, hterminal⟩ := shown_of_run hrun hi
  rw [hphase] at hterminal
  obtain hstate : i.state = report.state := by rw [hstate, hphase]; rfl
  exact ⟨i, hi, hstate, hstate ▸ hterminal⟩

/-- An instance whose report is out is not under way. -/
theorem isUnderWay_eq_false_of_mem_reports (hrun : Run settings log s)
    (hreport : report ∈ log.reports) : s.isUnderWay report.id = false := by
  obtain ⟨i, hi, hphase⟩ := reported_of_mem_reports hrun hreport
  simp [isUnderWay, hi, hphase, Phase.isOver]

/-- At rest every instance has been reported once. -/
theorem settled_of_isQuiet (hrun : Run settings log s) (hquiet : s.IsQuiet) : Settled log s := by
  have hexists {id : Nat} (hid : id ∈ log.admissions) : ∃ report ∈ log.reports, report.id = id := by
    obtain ⟨i, hi⟩ := (mem_admissions_iff hrun).1 hid
    exact exists_report_of_isQuiet hrun hquiet hi
  refine ⟨?_, fun rule => (beginnings_of_isQuiet hrun hquiet rule).1, ?_⟩
  · rw [active_eq_of_run hrun, List.filter_eq_nil_iff]
    intro id hid
    obtain ⟨report, hreport, rfl⟩ := hexists hid
    simp [isUnderWay_eq_false_of_mem_reports hrun hreport]
  · have hdistinct : log.admissions.Nodup := admissions_of_run hrun ▸ List.nodup_range
    refine (List.perm_ext_iff_of_nodup (nodup_reports_of_run hrun) hdistinct).2 fun id => ?_
    constructor
    · intro hid
      obtain ⟨report, hreport, rfl⟩ := List.mem_map.1 hid
      obtain ⟨i, hi, -⟩ := exists_state_of_mem_reports hrun hreport
      exact (mem_admissions_iff hrun).2 ⟨i, hi⟩
    · intro hid
      obtain ⟨report, hreport, rfl⟩ := hexists hid
      exact List.mem_map_of_mem hreport

/-- In every run the active instances are the accepted ones that have not ended, and the reports
are theirs, one for each. Every move leaves the state of an instance or passes it on. Without
further requests the instances come to rest, and then all of them have been reported. -/
theorem accounted_of_run (hrun : Run settings log s) :
    Accounted log s ∧
    (∀ m s' reply, s.move? m = some (s', reply) →
      (∀ id i, s.instance? id = some i → ∃ i', s'.instance? id = some i' ∧
        (i'.state = i.state ∨ i.state.Next i'.state)) ∧
      (∀ id i', s.instance? id = none → s'.instance? id = some i' → i'.state = .pending)) ∧
    (∃ bound, ∀ rest s', Run settings (log ++ rest) s' →
      (∀ o ∈ rest, o.move.agent?.isSome) → rest.length ≤ bound) ∧
    (s.IsQuiet → Settled log s) := by
  refine ⟨?_, fun m s' reply hmove => ⟨fun id i hi => ?_, fun id i' hnone hi' => ?_⟩,
    ⟨s.work, fun rest s' hrest hagents => ?_⟩, settled_of_isQuiet hrun⟩
  · exact {
      accepted := admissions_of_run hrun
      active := active_eq_of_run hrun
      cancellable := fun id => by rw [cancel_eq_true_iff, active_eq_of_run hrun, List.mem_filter]
      counted := by rw [activeCount, active_eq_of_run hrun, List.countP_eq_length_filter]
      single := nodup_reports_of_run hrun
      received := fun id report => received?_of_run hrun
      terminal := fun id i hi => by simp [(shown_of_run hrun hi).terminal, isUnderWay, hi]
      reported := fun report hreport => by
        obtain ⟨i, hi, hstate⟩ := exists_state_of_mem_reports hrun hreport
        exact ⟨(mem_admissions_iff hrun).2 ⟨i, hi⟩, i, hi, hstate⟩ }
  · obtain ⟨i', hi'⟩ := exists_instance_of_step (step_of_move hmove) hi
    rcases state_of_move hrun hmove hi' with ⟨hnone, -⟩ | ⟨k, hk, hstate⟩
    · rw [hi] at hnone
      cases hnone
    · obtain rfl := Option.some.inj (hi.symm.trans hk)
      exact ⟨i', hi', hstate⟩
  · rcases state_of_move hrun hmove hi' with ⟨-, hstate⟩ | ⟨k, hk, -⟩
    · exact hstate
    · rw [hnone] at hk
      cases hk
  · have hbound := length_add_work_le hrun rest s' hrest hagents
    omega

end Run

/-- A job of an exclusive rule with two actions. -/
def Job.exclusiveTwofold : Job :=
  { Job.twofold with
    rule := { Job.twofold.rule with definition := RuleDraft.finish default { exclusive := true } } }

/-- Of two instances of an exclusive rule the first one is cancelled after its action crashed, and
the second one before it starts. -/
theorem accounted_of_two_cancellations :
    ∃ log s, Run {} log s ∧ log.admissions = [0, 1] ∧ s.IsQuiet ∧ Accounted log s ∧
      Settled log s := by
  obtain ⟨log, s, hplay, hadmissions, hrest⟩ : ∃ log s,
      ({} : Scheduler).play? [] [.submit .exclusiveTwofold false, .submit .exclusiveTwofold false,
        .start 0, .proceed 0, .answer 0 (.crashed "oops"), .cancelAll, .abandon 0, .release 0,
        .publish 0, .start 1, .release 1, .publish 1] = some (log, s) ∧
      log.admissions = [0, 1] ∧ s.instances.all (fun i => !i.isLive) = true :=
    ⟨_, _, rfl, rfl, rfl⟩
  have hrun : Run {} log s := run_of_play? .nil hplay
  have hquiet : s.IsQuiet := isQuiet_of_isLive_eq_false (by simpa using hrest)
  obtain ⟨haccounted, -, -, hsettled⟩ := accounted_of_run hrun
  exact ⟨log, s, hrun, hadmissions, hquiet, haccounted, hsettled hquiet⟩

end Scheduler

end Reflex
