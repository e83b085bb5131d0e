import Reflex.Proofs.Scheduler.Calls
import Reflex.Proofs.Scheduler.Exclusive

/-!
# Reports Are Faithful

The report of an instance tells what the executor saw, whatever the executor answers, whichever
deadlines pass, and whenever the instance is cancelled. What an instance has collected at any
moment accounts for the calls that it has made so far.

## Main definitions

- `Scheduler.Course`: how the outcomes of the actions belong to that of the instance.
- `Scheduler.Faithful`: a report tells what the executor saw.
- `Scheduler.Account`: what an instance has collected accounts for its calls.

## Main statements

- `Scheduler.account_of_run`: in every run every instance accounts for its calls.
- `Scheduler.faithful_of_run`: every report that goes out is faithful.
-/

namespace Reflex.Scheduler

/-- How the states of the outcomes belong to that of the instance. -/
inductive Course (cancelled : Bool) : List ActionState → InstanceState → Prop
  -- All actions completed.
  | completed (k : Nat) : Course cancelled (List.replicate k .completed) .completed
  -- An action failed, and the rest was skipped.
  | failed (k m : Nat) : Course cancelled
      (List.replicate k .completed ++ .failed :: List.replicate m .skipped) .failed
  -- An action ended as cancelled, and the rest was skipped.
  | cancelled (k m : Nat) : Course cancelled
      (List.replicate k .completed ++ .cancelled :: List.replicate m .skipped) .cancelled
  -- The instance was cancelled between two actions or before the first one.
  | interrupted (k m : Nat) (hcancelled : cancelled = true) : Course cancelled
      (List.replicate k .completed ++ List.replicate m .skipped) .cancelled

/-- The report of an instance tells what the executor saw. -/
structure Faithful (settings : Settings) (id : Nat) (job : Job) (cancelled : Bool)
    (calls : List Call) (report : Report) : Prop where
  /-- It is the report of the instance. -/
  header : report.id = id ∧ report.rule = job.rule.id ∧ report.ruleName = job.rule.name
  /-- It has an outcome for every action. -/
  length : report.outcomes.length = job.rule.actions.length
  /-- The outcomes are those of the actions, in order. -/
  listed : Listed job report.outcomes
  /-- The outcomes decide how the instance ended. -/
  course : Course cancelled (report.outcomes.map (·.state)) report.state
  /-- The outcomes tell, one after the other, what the executor saw. -/
  told : Told settings job cancelled report.outcomes calls
  /-- Before the start the executor saw nothing. -/
  unstarted : report.started = false → calls = []

/-- What an instance has collected accounts for its calls. -/
def Account (settings : Settings) (id : Nat) (i : Instance) (calls : List Call) : Prop :=
  match i.phase with
  | .queued | .called | .ready => calls = []
  | .proceeding outcomes => Done settings i.job i.cancelled outcomes calls
  | .attempting outcomes attempt late =>
    ∃ before failed, calls = before ++ (failed ++ [{ index := outcomes.length, attempt, late }]) ∧
      Done settings i.job i.cancelled outcomes before ∧
      outcomes.length < i.job.rule.actions.length ∧
      ∃ tries, attempt = tries + 1 ∧ attempt ≤ i.job.retry.maxAttempts ∧
        Retried outcomes.length (i.job.actionType outcomes.length) tries failed ∧
        (late = true → ∃ ms, timeoutMs? { settings } i.job outcomes.length = some ms)
  | .backingOff outcomes attempt =>
    ∃ before failed last, calls = before ++ (failed ++ [last]) ∧
      Done settings i.job i.cancelled outcomes before ∧
      outcomes.length < i.job.rule.actions.length ∧
      ∃ tries e, attempt = tries + 1 ∧ attempt < i.job.retry.maxAttempts ∧
        Retried outcomes.length (i.job.actionType outcomes.length) tries failed ∧
        last.index = outcomes.length ∧ last.attempt = attempt ∧
        last.Failed (i.job.actionType outcomes.length) e
  | .leaving report | .reporting report _ | .reported report =>
    Faithful settings id i.job i.cancelled calls report

/-! ## Reports at the end -/

section Report

variable {settings : Settings} {id : Nat} {i : Instance} {outcomes : List ActionOutcome}
  {calls current : List Call} {outcome : ActionOutcome}

theorem length_skippedFrom (index : Nat) (actions : List CompiledAction) :
    (skippedFrom index actions).length = actions.length := by
  induction actions generalizing index with
  | nil => rfl
  | cons a rest ih => simp [skippedFrom, ih]

theorem map_state_skippedFrom (index : Nat) (actions : List CompiledAction) :
    (skippedFrom index actions).map (·.state) = List.replicate actions.length .skipped := by
  induction actions generalizing index with
  | nil => rfl
  | cons a rest ih => simp [skippedFrom, ih, List.replicate_succ]

/-- A report has an outcome for every action. -/
theorem length_withSkipped {job : Job} (h : Listed job outcomes) :
    (withSkipped job outcomes).length = job.rule.actions.length := by
  have hle := h.length_le
  rw [withSkipped, List.length_append, length_skippedFrom, List.length_drop]
  omega

/-- An action that is to be invoked has a type. -/
theorem map_type_getElem? {job : Job} {index : Nat} (h : index < job.rule.actions.length) :
    (job.rule.actions[index]?).map CompiledAction.type = some (job.actionType index) := by
  rw [Job.actionType, List.getElem?_eq_getElem h]
  rfl

/-- The report after all actions completed. -/
theorem Done.faithful_completed (h : Done settings i.job i.cancelled outcomes calls)
    (hlength : i.job.rule.actions.length ≤ outcomes.length) :
    Faithful settings id i.job i.cancelled calls (i.report id .completed true outcomes) := by
  have hall : withSkipped i.job outcomes = outcomes := by
    rw [withSkipped, List.drop_eq_nil_of_le hlength]
    simp [skippedFrom]
  exact {
    header := ⟨rfl, rfl, rfl⟩
    length := length_withSkipped h.listed
    listed := h.listed.withSkipped
    course := by
      simp only [Instance.report, hall, h.completed]
      exact .completed _
    told := h.told.skippedFrom _ _
    unstarted := by simp [Instance.report] }

/-- The report of an instance that was cancelled between two actions or before the first one. -/
theorem Done.faithful_interrupted (h : Done settings i.job i.cancelled outcomes calls)
    (hcancelled : i.cancelled = true) {started : Bool} (hstarted : started = false → calls = []) :
    Faithful settings id i.job i.cancelled calls (i.report id .cancelled started outcomes) where
  header := ⟨rfl, rfl, rfl⟩
  length := length_withSkipped h.listed
  listed := h.listed.withSkipped
  course := by
    simp only [Instance.report, withSkipped, List.map_append, h.completed, map_state_skippedFrom]
    exact .interrupted _ _ hcancelled
  told := h.told.skippedFrom _ _
  unstarted := hstarted

/-- The report of an instance that ended with an action. -/
theorem Done.faithful_stopped (h : Done settings i.job i.cancelled outcomes calls)
    (hindex : outcome.index = outcomes.length)
    (htype : (i.job.rule.actions[outcomes.length]?).map CompiledAction.type = some outcome.type)
    (hreflects : Reflects settings i.job i.cancelled outcome current) {state : InstanceState}
    (hstate : outcome.state = .failed ∧ state = .failed ∨
      outcome.state = .cancelled ∧ state = .cancelled) :
    Faithful settings id i.job i.cancelled (calls ++ current)
      (i.report id state true (outcomes ++ [outcome])) := by
  have hlisted := h.listed.snoc hindex htype
  exact {
    header := ⟨rfl, rfl, rfl⟩
    length := length_withSkipped hlisted
    listed := hlisted.withSkipped
    course := by
      simp only [Instance.report, withSkipped, List.map_append, h.completed,
        map_state_skippedFrom, List.map_cons, List.append_assoc, List.cons_append,
        List.nil_append]
      rcases hstate with ⟨hstate, rfl⟩ | ⟨hstate, rfl⟩ <;> rw [hstate]
      · exact .failed _ _
      · exact .cancelled _ _
    told := (h.told.snoc hreflects).skippedFrom _ _
    unstarted := by simp [Instance.report] }

end Report

theorem Course.mono {cancelled cancelled' : Bool} {states : List ActionState}
    {state : InstanceState} (hcancelled : cancelled = true → cancelled' = true)
    (h : Course cancelled states state) : Course cancelled' states state := by
  cases h with
  | completed k => exact .completed k
  | failed k m => exact .failed k m
  | cancelled k m => exact .cancelled k m
  | interrupted k m hc => exact .interrupted k m (hcancelled hc)

/-- A request for cancellation that comes later does no harm. -/
theorem Faithful.mono {settings : Settings} {id : Nat} {job : Job} {cancelled cancelled' : Bool}
    {calls : List Call} {report : Report} (hcancelled : cancelled = true → cancelled' = true)
    (h : Faithful settings id job cancelled calls report) :
    Faithful settings id job cancelled' calls report where
  header := h.header
  length := h.length
  listed := h.listed
  course := h.course.mono hcancelled
  told := h.told.mono hcancelled
  unstarted := h.unstarted

/-! ## Accounts -/

section Account

variable {settings : Settings} {s : Scheduler} {id : Nat} {m : Move} {reply : Reply}
  {i i' : Instance} {calls : List Call}

/-- An instance that has ended accounts for its calls by its report. -/
theorem account_ended {state : InstanceState} {started : Bool} {outcomes : List ActionOutcome}
    (h : Faithful settings id i.job i.cancelled calls (i.report id state started outcomes)) :
    Account settings id (i.ended id state started outcomes) calls := by
  unfold Account Instance.ended Instance.exit
  split
  all_goals
    rename_i hphase
    split at hphase <;> cases hphase
  all_goals exact h

/-- The answer to an invocation completes the last call. -/
theorem note_answer (before failed : List Call) (c : Call) (result : InvocationResult) :
    Occurrence.note id (before ++ (failed ++ [c])) ⟨.answer id result, reply⟩ =
      before ++ (failed ++ [{ c with result := some result }]) := by
  simp only [Occurrence.note, if_pos, ← List.append_assoc, List.modifyLast_concat]

/-- A deadline that passes is that of the last call. -/
theorem note_expire (before failed : List Call) (c : Call) :
    Occurrence.note id (before ++ (failed ++ [c])) ⟨.expire id, reply⟩ =
      before ++ (failed ++ [{ c with late := true }]) := by
  simp only [Occurrence.note, if_pos, ← List.append_assoc, List.modifyLast_concat]

/-- An instance that stands by accounts for its calls. -/
theorem Account.standsBy (h : Account settings id i calls) (hstands : StandsBy i i') :
    Account settings id i' calls := by
  obtain ⟨hjob, hcancelled, -, hphase | ⟨hphase, hphase'⟩ | ⟨hphase, hphase'⟩⟩ := hstands
  · unfold Account at h ⊢
    rw [hphase, hjob]
    split at h
    · exact h
    · exact h
    · exact h
    · exact h.mono hcancelled
    · obtain ⟨before, failed, hcalls, hdone, hrest⟩ := h
      exact ⟨before, failed, hcalls, hdone.mono hcancelled, hrest⟩
    · obtain ⟨before, failed, last, hcalls, hdone, hrest⟩ := h
      exact ⟨before, failed, last, hcalls, hdone.mono hcancelled, hrest⟩
    all_goals exact h.mono hcancelled
  all_goals
    unfold Account at h ⊢
    rw [hphase] at h
    rw [hphase']
    exact h

/-- An instance that acts accounts for its calls. -/
theorem Account.acts (h : Account settings id i calls) (hsettings : s.settings = settings)
    (hacts : Acts s id i m reply i') :
    Account settings id i' (Occurrence.note id calls ⟨m, reply⟩) := by
  have hlimit (index : Nat) : s.timeoutMs? i.job index = timeoutMs? { settings } i.job index := by
    simp [timeoutMs?, hsettings]
  unfold Account at h
  cases hacts with
  | forgo hphase hcancelled =>
    obtain rfl : calls = [] := by simpa [hphase] using h
    exact account_ended (Done.nil.faithful_interrupted hcancelled fun _ => rfl)
  | start hphase _ =>
    obtain rfl : calls = [] := by simpa [hphase] using h
    exact Done.nil
  | complete hphase hlength =>
    rw [hphase] at h
    exact account_ended (by simpa [Occurrence.note] using h.faithful_completed hlength)
  | interrupt hphase _ hcancelled =>
    rw [hphase] at h
    refine account_ended ?_
    have hstarted : true = false → calls = [] := by simp
    simpa [Occurrence.note] using h.faithful_interrupted hcancelled hstarted
  | @invoke outcomes hphase hlength _ =>
    rw [hphase] at h
    exact ⟨calls, [], by simp [Occurrence.note, Effect.call?], h, hlength, 0, rfl,
      Nat.le_max_left 1 _, .nil, by simp⟩
  | @succeed outcomes attempt late hphase =>
    rw [hphase] at h
    obtain ⟨before, failed, rfl, hdone, hlength, tries, rfl, hbound, hretried, -⟩ := h
    rw [note_answer]
    exact hdone.snoc rfl (map_type_getElem? hlength) rfl (hretried.reflects rfl rfl rfl (by simp)
      hbound (.completed rfl rfl rfl))
  | @stopCancelled outcomes attempt late hphase =>
    rw [hphase] at h
    obtain ⟨before, failed, rfl, hdone, hlength, tries, rfl, hbound, hretried, hlate⟩ := h
    rw [note_answer]
    refine account_ended (hdone.faithful_stopped rfl (map_type_getElem? hlength)
      (hretried.reflects rfl rfl rfl (by simp) hbound (.cancelled rfl rfl ?_)) (.inr ⟨rfl, rfl⟩))
    cases late with
    | false => rfl
    | true =>
      obtain ⟨ms, hms⟩ := hlate rfl
      exact ⟨ms, hms, by rw [if_pos rfl, hlimit, hms]; rfl⟩
  | @stopFailed outcomes attempt late result e hphase herror hne hlast =>
    rw [hphase] at h
    obtain ⟨before, failed, rfl, hdone, hlength, tries, rfl, hbound, hretried, -⟩ := h
    rw [note_answer]
    exact account_ended (hdone.faithful_stopped rfl (map_type_getElem? hlength)
      (hretried.reflects rfl rfl rfl (by simp) hbound (.failed rfl rfl ⟨hne, result, rfl, herror⟩
        (hlast.imp_left (Nat.le_antisymm hbound)))) (.inl ⟨rfl, rfl⟩))
  | @backOff outcomes attempt late result e hphase herror hne hmore _ =>
    rw [hphase] at h
    obtain ⟨before, failed, rfl, hdone, hlength, tries, rfl, _, hretried, -⟩ := h
    rw [note_answer]
    exact ⟨before, failed, _, rfl, hdone, hlength, tries, e, rfl, hmore, hretried, rfl, rfl,
      hne, result, rfl, herror⟩
  | @expire outcomes attempt ms hphase hms =>
    rw [hphase] at h
    obtain ⟨before, failed, rfl, hdone, hlength, tries, rfl, hbound, hretried, -⟩ := h
    rw [note_expire]
    exact ⟨before, failed, rfl, hdone, hlength, tries, rfl, hbound, hretried,
      fun _ => ⟨ms, hlimit outcomes.length ▸ hms⟩⟩
  | @resume outcomes attempt hphase =>
    rw [hphase] at h
    obtain ⟨before, failed, last, rfl, hdone, hlength, tries, e, rfl, hmore, hretried, hindex,
      hattempt, hfailed⟩ := h
    exact ⟨before, failed ++ [last], by simp [Occurrence.note, Effect.call?], hdone, hlength,
      tries + 1, rfl, hmore, hretried.snoc hindex hattempt hfailed, by simp⟩
  | @abandon outcomes attempt hphase hcancelled =>
    rw [hphase] at h
    obtain ⟨before, failed, last, rfl, hdone, hlength, tries, e, rfl, hmore, hretried, hindex,
      hattempt, hfailed⟩ := h
    refine account_ended ?_
    rw [show Occurrence.note id (before ++ (failed ++ [last])) ⟨.abandon id, .effects []⟩ =
      before ++ (failed ++ [last]) by simp [Occurrence.note]]
    exact hdone.faithful_stopped rfl (map_type_getElem? hlength)
      (hretried.reflects hindex hattempt rfl (by simp) (Nat.le_of_lt hmore)
        (.abandoned rfl rfl hfailed hcancelled hmore)) (.inr ⟨rfl, rfl⟩)
  | release hphase =>
    rw [hphase] at h
    exact h
  | @publish report next hphase =>
    rw [hphase] at h
    have hcalls : Occurrence.note id calls ⟨.publish id, .effects [.deliver report]⟩ = calls :=
      List.append_nil calls
    rw [hcalls]
    exact h

end Account

/-! ## Runs -/

/-- The report that an effect sends out. -/
def Effect.report? : Effect → Option Report
  | .deliver report => some report
  | .invoke .. => none

/-- The reports that an occurrence sends out. -/
def Occurrence.reports (o : Occurrence) : List Report :=
  match o.reply with
  | .effects effects => effects.filterMap Effect.report?
  | _ => []

/-- The reports that went out, in order. -/
def Log.reports (log : Log) : List Report :=
  log.flatMap Occurrence.reports

section Run

variable {settings : Settings} {log : Log} {s s' : Scheduler} {m : Move} {reply : Reply}

/-- In every run every instance accounts for its calls, and there are no others. -/
theorem account_of_run (hrun : Run settings log s) (id : Nat) :
    (s.instance? id = none → log.calls id = []) ∧
      ∀ i, s.instance? id = some i → Account settings id i (log.calls id) := by
  induction hrun with
  | nil => simp [Log.calls, instance?]
  | @snoc log s s' m reply hrun hmove ih =>
    have hstep := step_of_move hmove
    rw [calls_snoc]
    refine ⟨fun hnone => ?_, fun i' hi' => ?_⟩
    · have hbefore : s.instance? id = none := by
        simp only [instance?, List.getElem?_eq_none_iff] at hnone ⊢
        exact Nat.le_trans (length_le_of_step hstep) hnone
      have hagent : m.agent? ≠ some id := by
        intro hagent
        obtain ⟨i, hi, -⟩ := exists_agent hstep hagent
        rw [hbefore] at hi
        cases hi
      rw [calls_of_step hstep hagent]
      exact ih.1 hbefore
    · rcases change_of_run hrun hmove hi' with ⟨hnew, hnone, hphase⟩ |
        @⟨i, hi, hagent, hstands⟩ | @⟨i, hi, hacts⟩
      · rw [calls_of_step hstep (by simp [hnone]), ih.1 hnew]
        rcases hphase with hphase | hphase <;> simp [Account, hphase]
      · rw [calls_of_step hstep hagent]
        exact (ih.2 i hi).standsBy hstands
      · exact (ih.2 i hi).acts (settings_of_run hrun) hacts

/-- Only an instance that is to report sends its report out. -/
theorem reporting_of_mem_reports {report : Report} (hstep : Step s m s' reply)
    (hreport : report ∈ Occurrence.reports ⟨m, reply⟩) :
    ∃ id i next, m = .publish id ∧ s.instance? id = some i ∧
      i.phase = .reporting report next := by
  cases hstep with
  | mark _ _ hreply =>
    rcases hreply with rfl | ⟨active, rfl⟩ <;> simp [Occurrence.reports] at hreport
  | callUp hi hphase | retire hi hphase =>
    obtain rfl := List.mem_singleton.1 hreport
    exact ⟨_, _, _, rfl, hi, hphase⟩
  | _ => simp [Occurrence.reports, Effect.report?] at hreport

/-- A report that went out is that of the instance that it names. -/
theorem reported_of_mem_reports (hrun : Run settings log s) {report : Report}
    (hreport : report ∈ log.reports) :
    ∃ i, s.instance? report.id = some i ∧ i.phase = .reported report := by
  induction hrun with
  | nil => simp [Log.reports] at hreport
  | @snoc log s s' m reply hrun hmove ih =>
    have hstep := step_of_move hmove
    rw [Log.reports, List.flatMap_append, List.mem_append] at hreport
    rcases hreport with hold | hnew
    · obtain ⟨i, hi, hphase⟩ := ih hold
      obtain ⟨i', hi', ⟨-, hstands⟩ | hacts⟩ := exists_change_of_move hrun hmove hi
      · exact ⟨i', hi', by simpa [hphase] using hstands.phase⟩
      · -- a report that is out is the last that happens to an instance
        cases hacts <;> simp_all
    · obtain ⟨id, i, next, rfl, hi, hphase⟩ :=
        reporting_of_mem_reports hstep (by simpa using hnew)
      have haccount := (account_of_run hrun id).2 i hi
      rw [Account, hphase] at haccount
      obtain rfl : report.id = id := haccount.header.1
      obtain ⟨i', hi', ⟨hagent, -⟩ | hacts⟩ := exists_change_of_move hrun hmove hi
      · exact (hagent rfl).elim
      · cases hacts with
        | publish hphase' =>
          rw [hphase] at hphase'
          obtain ⟨rfl, rfl⟩ := Phase.reporting.inj hphase'
          exact ⟨_, hi', rfl⟩

/-- Whoever has reported sent its report out. -/
theorem mem_reports_of_reported (hrun : Run settings log s) {id : Nat} {i : Instance}
    {report : Report} (hi : s.instance? id = some i) (hphase : i.phase = .reported report) :
    report ∈ log.reports := by
  induction hrun generalizing i with
  | nil => simp [instance?] at hi
  | snoc hrun hmove ih =>
    rw [Log.reports, List.flatMap_append, List.mem_append]
    rcases change_of_run hrun hmove hi with ⟨-, -, hnew⟩ | @⟨k, hk, -, hstands⟩ | @⟨k, hk, hacts⟩
    · simp [hphase] at hnew
    · refine .inl (ih hk ?_)
      rcases hstands.phase with h | ⟨-, h⟩ | ⟨-, h⟩
      · rw [← h, hphase]
      all_goals simp [hphase] at h
    · refine .inr ?_
      cases hacts with
      | publish =>
        obtain rfl := Phase.reported.inj hphase
        simp [Occurrence.reports, Effect.report?]
      | _ =>
        simp only [Instance.stopped, Instance.ended, Instance.exit] at hphase
        first
        | cases hphase
        | split at hphase <;> cases hphase

/-- At rest every instance has reported. -/
theorem exists_report_of_isQuiet (hrun : Run settings log s) (hquiet : s.IsQuiet) {id : Nat}
    {i : Instance} (hi : s.instance? id = some i) : ∃ report ∈ log.reports, report.id = id := by
  have horderly := orderly_of_run hrun
  have hrest := isLive_eq_false_of_isQuiet hquiet hi
  cases hphase : i.phase with
  | queued =>
    -- nobody is left in a queue
    obtain ⟨rule, hrule⟩ :=
      horderly.exclusive id .waiting (standing?_of_instance? hi hphase) (.inl rfl)
    obtain ⟨past, holder, queue, hlane⟩ := horderly.lane rule
    have hfree := (beginnings_of_isQuiet hrun hquiet rule).1
    obtain rfl : holder = none := by simpa [hlane.slot] using hfree
    have hid := (horderly.belongs rule id).2 hrule
    rw [hlane.accepted, hlane.vacant rfl] at hid
    have hpassed := hlane.passed id (by simpa using hid)
    simp [stage?, standing?, hi, hphase, Phase.standing, Standing.stage] at hpassed
  | called =>
    have hdue := (stage?_of_isQuiet horderly hquiet id).1
    simp [stage?, standing?, hi, hphase, Phase.standing, Standing.stage] at hdue
  | reported report =>
    have haccount := (account_of_run hrun id).2 i hi
    rw [Account, hphase] at haccount
    exact ⟨report, mem_reports_of_reported hrun hi hphase, haccount.header.1⟩
  | _ => simp [Instance.isLive, hphase] at hrest

/-- Every report that goes out tells what the executor saw of its instance: the actions in their
order, each as often as its outcome says. At rest every instance has reported. -/
theorem faithful_of_run (hrun : Run settings log s) :
    (∀ report ∈ log.reports, ∃ i, s.instance? report.id = some i ∧
      Faithful settings report.id i.job i.cancelled (log.calls report.id) report ∧
      (log.calls report.id).Pairwise Call.Before ∧
      ∀ (k : Nat) (outcome : ActionOutcome), report.outcomes[k]? = some outcome →
        (log.calls report.id).countP (fun c => c.index = k) = outcome.attempts) ∧
    (s.IsQuiet → ∀ id i, s.instance? id = some i → ∃ report ∈ log.reports, report.id = id) := by
  refine ⟨fun report hreport => ?_, fun hquiet id i hi => exists_report_of_isQuiet hrun hquiet hi⟩
  obtain ⟨i, hi, hphase⟩ := reported_of_mem_reports hrun hreport
  have hfaithful := (account_of_run hrun report.id).2 i hi
  rw [Account, hphase] at hfaithful
  obtain ⟨groups, hcalls, hgroups⟩ := hfaithful.told
  obtain ⟨hpairwise, -, hcount⟩ := pairwise_of_groups (n := 0)
    (hgroups.imp fun _ _ h => h.numbered) fun k o ho => by
      rw [(hfaithful.listed k o ho).1, Nat.zero_add]
  refine ⟨i, hi, hfaithful, hcalls ▸ hpairwise, fun k outcome ho => ?_⟩
  rw [hcalls, ← hcount k outcome ho, Nat.zero_add]

end Run

/-- A job with two actions, each of which is invoked up to twice. -/
def Job.twofold : Job where
  rule :=
    let action : CompiledAction :=
      { schema := { type := "log", name := "Log" }, store := ⟨.empty, 0, .empty⟩
        bindings := .empty, timeoutMs := none }
    { definition := RuleDraft.finish default {}, condition := .always
      actions := [action, action] }
  event := { kind := Event.timeTick }
  parameters := []
  retry := { attempts := 2 }

/-- The first action crashes and then completes, the second one notices that its deadline has
passed. -/
theorem faithful_of_crash_and_deadline :
    ∃ (log : Log) (s : Scheduler) (report : Report) (i : Instance),
      Run {} log s ∧ report ∈ log.reports ∧
      report.outcomes.map (fun o => (o.state, o.attempts)) = [(.completed, 2), (.cancelled, 1)] ∧
      Faithful {} report.id i.job i.cancelled (log.calls report.id) report := by
  obtain ⟨log, s, hplay, report, hreport, houtcomes⟩ : ∃ log s,
      ({} : Scheduler).play? [] [.submit .twofold false, .start 0, .proceed 0,
        .answer 0 (.crashed "oops"), .resume 0, .answer 0 .completed, .proceed 0, .expire 0,
        .answer 0 (.error .cancelled), .publish 0] = some (log, s) ∧
      ∃ report, log.reports = [report] ∧
        report.outcomes.map (fun o => (o.state, o.attempts)) =
          [(.completed, 2), (.cancelled, 1)] :=
    ⟨_, _, rfl, _, rfl, rfl⟩
  have hrun : Run {} log s := run_of_play? .nil hplay
  obtain ⟨i, -, hfaithful, -⟩ := (faithful_of_run hrun).1 report (by simp [hreport])
  exact ⟨log, s, report, i, hrun, by simp [hreport], houtcomes, hfaithful⟩

end Reflex.Scheduler
