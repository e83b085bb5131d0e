import Reflex.Proofs.Scheduler.Accounting

/-!
# Shutdown

A shutdown has three steps: it requests the cancellation of all instances, closes the scheduler,
and waits until nothing is in progress. Submissions, and the steps of the instances, go on in
between and afterwards.

When the wait is over, every instance has been reported and nothing happens any more. Until then
every instance under way is cancelled, with one exception: the scheduler still accepts instances
between the first step and the second one, and the request does not reach these.

## Main definitions

- `Scheduler.Log.shutdown`: the logs of runs in which a shutdown waits, or has waited.
- `Scheduler.Reached`: no instance is left to run on.
- `Scheduler.Final`: nothing can happen any more.

## Main statements

- `Scheduler.isCancelled_or_admitted`: whom a request for all cancellations reaches.
- `Scheduler.reached_iff_of_run`: a shutdown reaches all but the latecomers.
- `Scheduler.unreached_of_late_submission`: it does not reach a latecomer.
- `Scheduler.final_of_run`: when the wait is over, everything is.
-/

namespace Reflex.Scheduler

/-- What happened before the request for all cancellations, between that and the closing, and
since. -/
def Log.shutdown (before between since : Log) : Log :=
  before ++ ⟨.cancelAll, .quiet⟩ :: (between ++ ⟨.close, .quiet⟩ :: since)

/-- Whether the cancellation of the instance of a number was requested. -/
def isCancelled (s : Scheduler) (id : Nat) : Bool :=
  (s.instance? id).any (·.cancelled)

/-- No instance is left to run on. -/
structure Reached (s : Scheduler) : Prop where
  /-- The cancellation of every instance under way was requested. -/
  cancelled : ∀ id, s.isUnderWay id = true → s.isCancelled id = true
  /-- Whatever action is invoked next is asked to stop. -/
  invoked : ∀ m s' effects id index attempt, s.move? m = some (s', .effects effects) →
    .invoke id index attempt ∈ effects → s'.isAskedToStop id = true

/-- Nothing is left to happen. -/
structure Final (log : Log) (s : Scheduler) : Prop where
  /-- Nothing is active or taken, and every accepted instance has been reported. -/
  settled : Settled log s
  /-- No instance was reported twice. -/
  single : (log.reports.map (·.id)).Nodup
  /-- The owner of every accepted instance has its report. -/
  received : ∀ id ∈ log.admissions, ∃ report, s.received? id = some report
  /-- No instance can make a move. -/
  quiet : s.IsQuiet
  /-- A submission is dropped and leaves no trace. -/
  refused : ∀ job cancelled, s.submit job cancelled = (s, .dropped)

section Cancellation

variable {settings : Settings} {log : Log} {s s' : Scheduler} {m : Move} {reply : Reply} {id : Nat}
  {i i' : Instance}

theorem isUnderWay_eq_true : s.isUnderWay id = true ↔
    ∃ i, s.instance? id = some i ∧ i.phase.isOver = false := by
  simp [isUnderWay, Option.any_eq_true]

theorem isCancelled_eq_true : s.isCancelled id = true ↔
    ∃ i, s.instance? id = some i ∧ i.cancelled = true := by
  simp [isCancelled, Option.any_eq_true]

/-- Whoever acts neither requests its cancellation nor takes it back. -/
theorem cancelled_of_acts (hacts : Acts s id i m reply i') : i'.cancelled = i.cancelled := by
  cases hacts <;> rfl

/-- A request for cancellation is not taken back. -/
theorem isCancelled_of_move (hrun : Run settings log s) (hmove : s.move? m = some (s', reply))
    (hcancelled : s.isCancelled id = true) : s'.isCancelled id = true := by
  obtain ⟨i, hi, hcancelled⟩ := isCancelled_eq_true.1 hcancelled
  obtain ⟨i', hi', ⟨-, hstands⟩ | hacts⟩ := exists_change_of_move hrun hmove hi
  · exact isCancelled_eq_true.2 ⟨i', hi', hstands.cancelled hcancelled⟩
  · exact isCancelled_eq_true.2 ⟨i', hi', (cancelled_of_acts hacts).trans hcancelled⟩

/-- Whoever is under way was so before, unless it has just been accepted. -/
theorem isUnderWay_or_admitted (hrun : Run settings log s)
    (hmove : s.move? m = some (s', reply)) (hway : s'.isUnderWay id = true) :
    s.isUnderWay id = true ∨ Occurrence.admitted? ⟨m, reply⟩ = some id := by
  rcases turnover_of_step (orderly_of_run hrun) (step_of_move hmove) with
    ⟨-, -, -, h⟩ | ⟨hadmitted, -, -, h⟩ | ⟨_, -, -, -, h⟩
  · exact .inl (h id ▸ hway)
  · rw [h, Bool.or_eq_true, beq_iff_eq] at hway
    exact hway.imp_right fun hid : id = s.instances.length => hid ▸ hadmitted
  · rw [h, Bool.and_eq_true] at hway
    exact .inl hway.1

/-- A request for all cancellations reaches every instance under way. -/
theorem isCancelled_cancelAll (hrun : Run settings log s) (hway : s.cancelAll.isUnderWay id = true) :
    s.cancelAll.isCancelled id = true := by
  have hmove : s.move? .cancelAll = some (s.cancelAll, .quiet) := rfl
  have hactive : id ∈ s.active := by
    have hbefore : s.isUnderWay id = true := by
      simpa [Occurrence.admitted?] using isUnderWay_or_admitted hrun hmove hway
    obtain ⟨i, hi, -⟩ := isUnderWay_eq_true.1 hbefore
    rw [active_eq_of_run hrun, List.mem_filter]
    exact ⟨(mem_admissions_iff hrun).2 ⟨i, hi⟩, hbefore⟩
  obtain ⟨i, hi, -⟩ := isUnderWay_eq_true.1 hway
  refine isCancelled_eq_true.2 ⟨i, hi, ?_⟩
  rw [cancelAll, instance?_foldl_requestCancel, Option.map_eq_some_iff] at hi
  obtain ⟨k, -, rfl⟩ := hi
  simp [hactive]

/-- Of the instances under way after a request for all cancellations, those that it does not reach
were accepted later. -/
theorem isCancelled_or_admitted {before rest : Log}
    (hrun : Run settings (before ++ ⟨.cancelAll, .quiet⟩ :: rest) s)
    (hway : s.isUnderWay id = true) : s.isCancelled id = true ∨ id ∈ rest.admissions := by
  rw [List.append_cons] at hrun
  obtain ⟨t, ht⟩ := exists_of_run_append hrun
  obtain ⟨u, hu, hmove⟩ := exists_of_run_snoc ht
  obtain ⟨rfl, -⟩ := Prod.mk.inj (Option.some.inj hmove)
  refine run_induction (P := fun rest s => ∀ id, s.isUnderWay id = true →
    s.isCancelled id = true ∨ id ∈ rest.admissions) ht ?_ ?_ rest s hrun id hway
  · exact fun id hway => .inl (isCancelled_cancelAll hu hway)
  · intro rest t m t' reply hrun ih hmove id hway
    rw [admissions_snoc, List.mem_append, Option.mem_toList]
    rcases isUnderWay_or_admitted hrun hmove hway with hbefore | hadmitted
    · exact (ih id hbefore).imp (isCancelled_of_move hrun hmove) .inl
    · exact .inr (.inr hadmitted)

/-- Whoever invokes an action is under way, and if its cancellation was requested, the action is
asked to stop. -/
theorem isAskedToStop_of_invoke {effects : List Effect} {index attempt : Nat}
    (hstep : Step s m s' (.effects effects)) (hinvoke : .invoke id index attempt ∈ effects) :
    s.isUnderWay id = true ∧ (s.isCancelled id = true → s'.isAskedToStop id = true) := by
  cases hstep with
  | mark _ _ hreply => simp at hreply
  | @invoke j i outcomes hi hphase hlength hcancelled =>
    obtain ⟨rfl, -, -⟩ : id = j ∧ _ := by simpa using hinvoke
    refine ⟨isUnderWay_eq_true.2 ⟨i, hi, by rw [hphase]; rfl⟩, fun h => ?_⟩
    -- an instance that is cancelled does not go on with its next action
    simp [isCancelled, hi, hcancelled] at h
  | @resume j i outcomes attempt hi hphase =>
    obtain ⟨rfl, -, -⟩ : id = j ∧ _ := by simpa using hinvoke
    refine ⟨isUnderWay_eq_true.2 ⟨i, hi, by rw [hphase]; rfl⟩, fun h => ?_⟩
    have hcancelled : i.cancelled = true := by simpa [isCancelled, hi] using h
    simp [isAskedToStop, setPhase, hi, hcancelled]
  | _ => simp at hinvoke

end Cancellation

section Closing

variable {settings : Settings} {log : Log} {s s' : Scheduler} {m : Move} {reply : Reply} {id : Nat}

/-- A scheduler that is closed stays so and accepts nobody. -/
theorem closed_of_step (hstep : Step s m s' reply) (hclosed : s.closed = true) :
    s'.closed = true ∧ Occurrence.admitted? ⟨m, reply⟩ = none := by
  cases hstep with
  | mark ids hagent hreply =>
    refine ⟨(closed_foldl_requestCancel s ids).trans hclosed, ?_⟩
    rcases hreply with rfl | ⟨active, rfl⟩ <;> cases m <;> rfl
  | drop hopen | accept hopen | take hopen | enqueue hopen => simp [hclosed] at hopen
  | close => exact ⟨rfl, rfl⟩
  | _ => exact ⟨hclosed, rfl⟩

/-- After the closing nobody is accepted. -/
theorem admissions_of_close {before since : Log}
    (hrun : Run settings (before ++ ⟨.close, .quiet⟩ :: since) s) :
    s.closed = true ∧ since.admissions = [] := by
  rw [List.append_cons] at hrun
  obtain ⟨t, ht⟩ := exists_of_run_append hrun
  obtain ⟨u, -, hmove⟩ := exists_of_run_snoc ht
  obtain ⟨rfl, -⟩ := Prod.mk.inj (Option.some.inj hmove)
  refine run_induction (P := fun since s => s.closed = true ∧ since.admissions = []) ht
    ⟨rfl, rfl⟩ ?_ since s hrun
  rintro since t m t' reply - ⟨hclosed, hnone⟩ hmove
  obtain ⟨hclosed', hadmitted⟩ := closed_of_step (step_of_move hmove) hclosed
  exact ⟨hclosed', by rw [admissions_snoc, hnone, hadmitted]; rfl⟩

theorem isStopped_iff : s.isStopped = true ↔
    s.closed = true ∧ ∀ i ∈ s.instances, i.isLive = false := by
  simp [isStopped]

/-- A scheduler that is closed and has no work in progress stays so, and what comes to it is a
request that accepts nobody. -/
theorem isStopped_of_move (hstopped : s.isStopped = true)
    (hmove : s.move? m = some (s', reply)) :
    s'.isStopped = true ∧ m.agent? = none ∧ Occurrence.admitted? ⟨m, reply⟩ = none := by
  obtain ⟨hclosed, hrest⟩ := isStopped_iff.1 hstopped
  have hstep := step_of_move hmove
  obtain ⟨hclosed', hadmitted⟩ := closed_of_step hstep hclosed
  have hagent : m.agent? = none := by
    by_contra hagent
    have hquiet := isQuiet_of_isLive_eq_false hrest m (Option.isSome_iff_ne_none.2 hagent)
    simp [hquiet] at hmove
  refine ⟨isStopped_iff.2 ⟨hclosed', ?_⟩, hagent, hadmitted⟩
  cases hstep with
  | refuse | close => exact hrest
  | drop hopen | accept hopen | take hopen | enqueue hopen => simp [hclosed] at hopen
  | mark ids =>
    intro i hi
    obtain ⟨j, hj⟩ := List.mem_iff_getElem?.1 hi
    obtain ⟨k, hk, rfl⟩ := Option.map_eq_some_iff.1
      ((instance?_foldl_requestCancel s j ids).symm.trans hj)
    exact hrest k (List.mem_of_getElem? hk)
  | _ => cases hagent

/-- From then on nobody is accepted and no action is invoked. -/
theorem still_of_isStopped {rest : Log} (hrun : Run settings log s) (hstopped : s.isStopped = true)
    (hrest : Run settings (log ++ rest) s') :
    s'.isStopped = true ∧ Log.admissions (log ++ rest) = log.admissions ∧
      ∀ id, Log.calls (log ++ rest) id = log.calls id := by
  refine run_induction (P := fun rest s => s.isStopped = true ∧
    Log.admissions (log ++ rest) = log.admissions ∧
    ∀ id, Log.calls (log ++ rest) id = log.calls id) hrun (by simpa using hstopped) ?_ rest s' hrest
  rintro rest t m t' reply - ⟨hstopped, hadmissions, hcalls⟩ hmove
  obtain ⟨hstopped', hagent, hadmitted⟩ := isStopped_of_move hstopped hmove
  refine ⟨hstopped', ?_, fun id => ?_⟩
  · rw [← List.append_assoc, admissions_snoc, hadmissions, hadmitted, Option.toList_none,
      List.append_nil]
  · rw [← List.append_assoc, calls_snoc, hcalls,
      calls_of_step (step_of_move hmove) (by simp [hagent])]

/-- A scheduler that is closed and has no work in progress has reported on everybody. -/
theorem final_of_isStopped (hrun : Run settings log s) (hstopped : s.isStopped = true) :
    Final log s := by
  obtain ⟨hclosed, hrest⟩ := isStopped_iff.1 hstopped
  have hquiet := isQuiet_of_isLive_eq_false hrest
  exact {
    settled := settled_of_isQuiet hrun hquiet
    single := nodup_reports_of_run hrun
    received := fun id hid => by
      obtain ⟨i, hi⟩ := (mem_admissions_iff hrun).1 hid
      obtain ⟨report, hreport, rfl⟩ := exists_report_of_isQuiet hrun hquiet hi
      exact ⟨report, (received?_of_run hrun).2 ⟨hreport, rfl⟩⟩
    quiet := hquiet
    refused := fun job cancelled => by rw [submit, if_pos hclosed] }

end Closing

section Run

variable {settings : Settings} {s : Scheduler} {before between since : Log}

/-- What is accepted after the request of a shutdown for all cancellations is accepted before its
closing. -/
theorem admissions_since_cancelAll (hrun : Run settings (Log.shutdown before between since) s) :
    Log.admissions (between ++ ⟨.close, .quiet⟩ :: since) = between.admissions := by
  have hnone : since.admissions = [] := by
    rw [Log.shutdown, List.append_cons, ← List.append_assoc] at hrun
    exact (admissions_of_close hrun).2
  have hclose : Log.admissions (⟨.close, .quiet⟩ :: since) = since.admissions := rfl
  rw [Log.admissions, List.filterMap_append]
  exact (congrArg (between.admissions ++ ·) (hclose.trans hnone)).trans (List.append_nil _)

/-- From the moment at which a shutdown waits, every instance under way is cancelled and every
action that is invoked is asked to stop, but for the instances that were accepted after the request
for all cancellations and before the closing. So a shutdown reaches everybody exactly if none of
these is left to run on. -/
theorem reached_iff_of_run (hrun : Run settings (Log.shutdown before between since) s) :
    (∀ id, s.isUnderWay id = true → s.isCancelled id = true ∨ id ∈ between.admissions) ∧
    (∀ m s' effects id index attempt, s.move? m = some (s', .effects effects) →
      .invoke id index attempt ∈ effects →
      s'.isAskedToStop id = true ∨ id ∈ between.admissions) ∧
    (s.Reached ↔
      ∀ id ∈ between.admissions, s.isUnderWay id = true → s.isCancelled id = true) := by
  have hunderWay (id : Nat) (hway : s.isUnderWay id = true) :
      s.isCancelled id = true ∨ id ∈ between.admissions := by
    rw [← admissions_since_cancelAll hrun]
    exact isCancelled_or_admitted hrun hway
  refine ⟨hunderWay, fun m s' effects id index attempt hmove hinvoke => ?_,
    fun hreached id _ => hreached.cancelled id, fun hlate => ?_⟩
  · obtain ⟨hway, hasked⟩ := isAskedToStop_of_invoke (step_of_move hmove) hinvoke
    exact (hunderWay id hway).imp_left hasked
  · have hcancelled (id : Nat) (hway : s.isUnderWay id = true) : s.isCancelled id = true :=
      (hunderWay id hway).elim (fun h => h) fun hid => hlate id hid hway
    refine ⟨hcancelled, fun m s' effects id index attempt hmove hinvoke => ?_⟩
    obtain ⟨hway, hasked⟩ := isAskedToStop_of_invoke (step_of_move hmove) hinvoke
    exact hasked (hcancelled id hway)

/-- An instance that was accepted before the shutdown is cancelled when the wait begins. -/
theorem reached_iff_of_early_submission :
    ∃ s, Run {} (Log.shutdown [⟨.submit .twofold false, .submission (.started 0)⟩] [] []) s ∧
      s.isUnderWay 0 = true ∧ s.Reached := by
  obtain ⟨s, hplay, hway⟩ : ∃ s,
      ({} : Scheduler).play? [] [.submit .twofold false, .cancelAll, .close] =
        some (Log.shutdown [⟨.submit .twofold false, .submission (.started 0)⟩] [] [], s) ∧
      s.isUnderWay 0 = true :=
    ⟨_, rfl, rfl⟩
  have hrun := run_of_play? .nil hplay
  exact ⟨s, hrun, hway, (reached_iff_of_run hrun).2.2.2 (by simp [Log.admissions])⟩

/-- An instance that is accepted after the request for all cancellations and before the closing
starts while the shutdown waits, and its actions are not asked to stop. -/
theorem unreached_of_late_submission :
    ∃ before between since s, Run {} (Log.shutdown before between since) s ∧
      s.isUnderWay 0 = true ∧ s.isCancelled 0 = false ∧
      (∃ s', s.move? (.proceed 0) = some (s', .effects [.invoke 0 0 1]) ∧
        s'.isAskedToStop 0 = false) ∧
      ¬ s.Reached := by
  obtain ⟨s, hplay, hway, hcancelled, hinvoked⟩ : ∃ s,
      ({} : Scheduler).play? [] [.cancelAll, .submit .twofold false, .close, .start 0] =
        some (Log.shutdown [] [⟨.submit .twofold false, .submission (.started 0)⟩]
          [⟨.start 0, .effects []⟩], s) ∧
      s.isUnderWay 0 = true ∧ s.isCancelled 0 = false ∧
      ∃ s', s.move? (.proceed 0) = some (s', .effects [.invoke 0 0 1]) ∧
        s'.isAskedToStop 0 = false :=
    ⟨_, rfl, rfl, rfl, _, rfl, rfl⟩
  refine ⟨_, _, _, s, run_of_play? .nil hplay, hway, hcancelled, hinvoked, fun hreached => ?_⟩
  simpa [hcancelled] using hreached.cancelled 0 hway

/-- The wait of a shutdown can end exactly when every accepted instance has been reported, and
without further requests the instances come to that. Once it has ended nothing happens any more: no
action is invoked, nothing is active or taken, and every submission is dropped. -/
theorem final_of_run {log : Log} (hlog : log = Log.shutdown before between since)
    (hrun : Run settings log s) :
    (s.isStopped = true ↔ ∀ id ∈ log.admissions, (s.received? id).isSome) ∧
    (∃ bound, ∀ rest s', Run settings (log ++ rest) s' →
      (∀ o ∈ rest, o.move.agent?.isSome) → rest.length ≤ bound) ∧
    (s.IsQuiet → s.isStopped = true) ∧
    (s.isStopped = true → ∀ rest s', Run settings (log ++ rest) s' →
      Final (log ++ rest) s' ∧ Log.admissions (log ++ rest) = log.admissions ∧
      ∀ id, Log.calls (log ++ rest) id = log.calls id) := by
  have hclosed : s.closed = true := by
    rw [hlog, Log.shutdown, List.append_cons, ← List.append_assoc] at hrun
    exact (admissions_of_close hrun).1
  refine ⟨⟨fun hstopped id hid => ?_, fun hreceived => isStopped_iff.2 ⟨hclosed, fun i hi => ?_⟩⟩,
    ⟨s.work, fun rest s' hrest hagents => ?_⟩, fun hquiet => ?_, fun hstopped rest s' hrest => ?_⟩
  · exact Option.isSome_iff_exists.2 ((final_of_isStopped hrun hstopped).received id hid)
  · obtain ⟨id, hid⟩ := List.mem_iff_getElem?.1 hi
    obtain ⟨report, hreport⟩ := Option.isSome_iff_exists.1
      (hreceived id ((mem_admissions_iff hrun).2 ⟨i, hid⟩))
    obtain ⟨k, hk, hphase⟩ := received?_eq_some.1 hreport
    obtain rfl : i = k := Option.some.inj (hid.symm.trans hk)
    rw [Instance.isLive, hphase]
  · have hbound := length_add_work_le hrun rest s' hrest hagents
    omega
  · refine isStopped_iff.2 ⟨hclosed, fun i hi => ?_⟩
    obtain ⟨id, hid⟩ := List.mem_iff_getElem?.1 hi
    exact isLive_eq_false_of_isQuiet hquiet hid
  · obtain ⟨hstopped', hadmissions, hcalls⟩ := still_of_isStopped hrun hstopped hrest
    exact ⟨final_of_isStopped hrest hstopped', hadmissions, hcalls⟩

/-- Of two instances of an exclusive rule the second one is accepted while the scheduler is shut
down. Both are reported before the wait is over, and a third one is dropped. -/
theorem final_of_queued_submission :
    ∃ log s, Run {} log s ∧ log.admissions = [0, 1] ∧ Final log s ∧
      s.submit (.vacant true) false = (s, .dropped) := by
  obtain ⟨between, since, s, hplay, hadmissions, hstopped⟩ : ∃ between since s,
      ({} : Scheduler).play? [] [.submit .exclusiveTwofold false, .start 0, .proceed 0, .cancelAll,
        .submit .exclusiveTwofold false, .close, .answer 0 (.error .cancelled), .release 0,
        .publish 0, .start 1, .proceed 1, .answer 1 (.crashed "oops"), .resume 1,
        .answer 1 (.crashed "oops"), .release 1, .publish 1] =
        some (Log.shutdown [⟨.submit .exclusiveTwofold false, .submission (.started 0)⟩,
          ⟨.start 0, .effects []⟩, ⟨.proceed 0, .effects [.invoke 0 0 1]⟩] between since, s) ∧
      (Log.shutdown [⟨.submit .exclusiveTwofold false, .submission (.started 0)⟩,
          ⟨.start 0, .effects []⟩, ⟨.proceed 0, .effects [.invoke 0 0 1]⟩]
          between since).admissions = [0, 1] ∧
      s.isStopped = true :=
    ⟨[⟨.submit .exclusiveTwofold false, .submission (.queued 1)⟩], _, _, rfl, rfl, rfl⟩
  have hrun := run_of_play? .nil hplay
  obtain ⟨-, -, -, hfinal⟩ := final_of_run rfl hrun
  obtain ⟨hfinal, -, -⟩ := hfinal hstopped [] s (by simpa using hrun)
  rw [List.append_nil] at hfinal
  exact ⟨_, s, hrun, hadmissions, hfinal, hfinal.refused _ _⟩

end Run

end Reflex.Scheduler
