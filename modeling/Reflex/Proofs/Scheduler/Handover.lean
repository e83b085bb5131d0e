import Reflex.Proofs.Scheduler.Accounting

/-!
# A Delivered Report Means That the Rule Is Free

An instance of an exclusive rule hands the rule on, and reports afterwards; submissions come in
between as at any other time. So whoever has its report can count on the rule: once all instances
that were accepted for it have been reported, the next submission starts at once.

## Main definitions

- `Scheduler.HandedOn`: an instance handed its rule on to the one that waited longest.

## Main statements

- `Scheduler.handedOn_of_mem_departures`: how the turn of an instance ended.
- `Scheduler.slots_eq_none_of_reports`: a rule whose instances have been reported is free.
- `Scheduler.handedOn_before_report`: instances report after they handed their rule on.
-/

namespace Reflex.Scheduler

/-- At some moment of a run an instance held a rule and handed it on: to the instance that waited
longest, or, if none waited, to nobody. -/
def HandedOn (settings : Settings) (log : Log) (rule : Identifier) (id : Nat) : Prop :=
  ∃ before since s s' queue,
    log = before ++ ⟨.release id, .handed queue.head?⟩ :: since ∧
    Run settings before s ∧ s.move? (.release id) = some (s', .handed queue.head?) ∧
    s.slots rule = some queue ∧ TakesTurns before s rule (some id) ∧
    s'.slots rule = queue.head?.map (fun _ => queue.tail) ∧
    TakesTurns (before ++ [⟨.release id, .handed queue.head?⟩]) s' rule queue.head?

variable {settings : Settings} {log : Log} {s s' : Scheduler} {rule : Identifier} {id : Nat}

/-- An instance whose turn is over does not hold the rule. -/
theorem TakesTurns.holder_ne {holder : Option Nat} (h : TakesTurns log s rule holder)
    (hid : id ∈ log.departures rule) : holder ≠ some id := by
  rintro rfl
  have hdistinct : (log.turns rule).Nodup :=
    (h.ordered ▸ h.distinct).sublist (List.sublist_append_left ..)
  rw [h.single, List.nodup_append] at hdistinct
  exact hdistinct.2.2 id hid id (by simp) rfl

/-- The instance of a rule that reports has had its turn. -/
theorem mem_departures_of_reporting {i : Instance} {report : Report} {next : Option Nat}
    (hrun : Run settings log s) (hid : id ∈ log.acceptances rule) (hi : s.instance? id = some i)
    (hphase : i.phase = .reporting report next) : id ∈ log.departures rule := by
  obtain ⟨past, holder, queue, hlane⟩ := (orderly_of_run hrun).lane rule
  have hpassed : s.stage? id = some .passed := by
    rw [stage?, standing?_of_instance? hi hphase]
    cases next <;> rfl
  rw [hlane.departed]
  rw [hlane.accepted, List.mem_append, List.mem_append] at hid
  rcases hid with hpast | hholder | hqueue
  · exact hpast
  · rcases hlane.holding id (by simpa using hholder) with h | h <;> simp [hpassed] at h
  · simpa [hpassed] using hlane.waiting id hqueue

/-- When the holder hands a rule on, the one that waited longest becomes the holder. -/
theorem TakesTurns.handed {o : Occurrence} {holder : Option Nat} {queue : List Nat}
    (h : TakesTurns log s rule (some id)) (h' : TakesTurns (log ++ [o]) s' rule holder)
    (haccepted : o.accepted? rule = none) (hqueue : s.slots rule = some queue)
    (hslot : s'.slots rule = queue.head?.map fun _ => queue.tail) : holder = queue.head? := by
  have htaken := h'.taken
  have hordered := h'.ordered
  rw [hslot] at htaken hordered
  cases queue with
  | nil => simpa using htaken
  | cons next rest =>
    obtain ⟨j, rfl⟩ : ∃ j, holder = some j := by
      simpa [Option.isSome_iff_exists] using htaken.symm
    have hbefore : log.acceptances rule = log.turns rule ++ [next] ++ rest := by
      simpa [hqueue] using h.ordered
    have hturns : Log.turns (log ++ [o]) rule = log.turns rule ++ [next] := by
      rw [acceptances_snoc_of_eq_none haccepted, hbefore] at hordered
      exact (List.append_cancel_right hordered).symm
    have hlast := hturns.symm.trans h'.single
    obtain ⟨-, hnext⟩ := List.append_inj' hlast rfl
    simpa using hnext.symm

/-- Only an instance that leaves its rule can hand it on. -/
theorem leaving_of_release {reply : Reply} (hrun : Run settings log s)
    (hmove : s.move? (.release id) = some (s', reply)) :
    ∃ i report, s.instance? id = some i ∧ i.phase = .leaving report ∧
      id ∈ log.acceptances i.job.rule.id := by
  obtain ⟨i, report, hi, hphase⟩ : ∃ i report, s.instance? id = some i ∧
      i.phase = .leaving report := by
    cases step_of_move hmove with
    | mark _ hnone => cases hnone
    | handOn hi hphase | free hi hphase => exact ⟨_, _, hi, hphase⟩
  exact ⟨i, report, hi, hphase, ((orderly_of_run hrun).lane_of_leaving (job?_of_instance? hi)
    (standing?_of_instance? hi hphase)).1⟩

/-- An instance that leaves hands its rule on. -/
theorem handedOn_of_release {before since : Log} {reply : Reply} (hrun : Run settings before s)
    (hmove : s.move? (.release id) = some (s', reply)) (hid : id ∈ before.acceptances rule) :
    HandedOn settings (before ++ ⟨.release id, reply⟩ :: since) rule id := by
  have horderly := orderly_of_run hrun
  obtain ⟨i, report, hi, hphase, -⟩ := leaving_of_release hrun hmove
  have hrule : i.job.rule.id = rule := (horderly.rule_eq (job?_of_instance? hi) hid).2
  obtain ⟨-, past, queue, hlane⟩ :=
    horderly.lane_of_leaving (job?_of_instance? hi) (standing?_of_instance? hi hphase)
  rw [hrule] at hlane
  obtain ⟨holder, hturns'⟩ := takesTurns_of_run (hrun.snoc hmove) rule
  obtain ⟨rfl, hslot⟩ : reply = .handed queue.head? ∧
      s'.slots rule = queue.head?.map fun _ => queue.tail := by
    have hqueue : s.slots i.job.rule.id = some queue := hrule ▸ hlane.slot
    cases step_of_move hmove with
    | mark _ hnone => cases hnone
    | handOn hi' hphase' hslot =>
      obtain rfl := Option.some.inj (hi.symm.trans hi')
      obtain rfl := Option.some.inj (hqueue.symm.trans hslot)
      exact ⟨rfl, by simp [setPhase, modify, hrule]⟩
    | free hi' hphase' hslot =>
      obtain rfl := Option.some.inj (hi.symm.trans hi')
      cases queue with
      | nil => exact ⟨rfl, by simp [setPhase, modify, hrule]⟩
      | cons next rest => exact (hslot next rest hqueue).elim
  have hturns := hlane.takesTurns horderly
  obtain rfl := hturns.handed hturns' rfl hlane.slot hslot
  exact ⟨before, since, s, s', queue, rfl, hrun, hmove, hlane.slot, hturns, hslot, hturns'⟩

/-- The turn of an instance ended when it handed its rule on. -/
theorem handedOn_of_mem_departures (hrun : Run settings log s) (hid : id ∈ log.departures rule) :
    HandedOn settings log rule id := by
  obtain ⟨hdeparture, hmem⟩ := List.mem_filter.1 hid
  obtain ⟨o, ho, hleft⟩ := List.mem_filterMap.1 hdeparture
  obtain ⟨before, since, rfl⟩ := List.append_of_mem ho
  obtain ⟨reply, rfl⟩ : ∃ reply, o = ⟨.release id, reply⟩ := by
    obtain ⟨m, reply⟩ := o
    cases m <;> simp only [Occurrence.departure?, reduceCtorEq, Option.some.injEq] at hleft
    exact ⟨reply, by rw [hleft]⟩
  obtain ⟨t, ht⟩ := exists_of_run_append (List.append_cons .. ▸ hrun)
  obtain ⟨u, hu, hmove⟩ := exists_of_run_snoc ht
  obtain ⟨i, report, -, -, hbefore⟩ := leaving_of_release hu hmove
  -- an instance belongs to the same rule then and now
  obtain ⟨job, hjob, -, hrule⟩ :=
    ((orderly_of_run hrun).belongs rule id).1 (of_decide_eq_true hmem)
  have hmem : id ∈ Log.acceptances (before ++ ⟨.release id, reply⟩ :: since) i.job.rule.id := by
    rw [Log.acceptances, List.filterMap_append]
    exact List.mem_append_left _ hbefore
  have hrule' := ((orderly_of_run hrun).rule_eq hjob hmem).2
  exact handedOn_of_release hu hmove (hrule ▸ hrule' ▸ hbefore)

/-- A rule is free when all instances that were accepted for it have been reported. -/
theorem slots_eq_none_of_reports (hrun : Run settings log s)
    (hreports : ∀ id ∈ log.acceptances rule, ∃ report ∈ log.reports, report.id = id) :
    s.slots rule = none := by
  obtain ⟨past, holder, queue, hlane⟩ := (orderly_of_run hrun).lane rule
  rw [hlane.slot, Option.map_eq_none_iff]
  by_contra hholder
  obtain ⟨id, rfl⟩ := Option.ne_none_iff_exists'.1 hholder
  obtain ⟨report, hreport, rfl⟩ := hreports id (hlane.mem_acceptances (.inr (.inl rfl)))
  obtain ⟨i, hi, hphase⟩ := reported_of_mem_reports hrun hreport
  have hpassed : s.stage? report.id = some .passed := by
    rw [stage?, standing?_of_instance? hi hphase]
    rfl
  rcases hlane.holding report.id rfl with h | h <;> simp [hpassed] at h

/-- A submission for a rule that is free starts at once. -/
theorem submit_of_free {job : Job} {cancelled : Bool} (hopen : s.closed = false)
    (hfree : s.slots job.rule.id = none) :
    (s.submit job cancelled).2 = .started s.instances.length := by
  cases hexclusive : job.isExclusive <;> simp [submit, hopen, hexclusive, hfree]

/-- Once all instances that were accepted for a rule have been reported, the rule is free and the
next submission starts, whatever its policy. A report goes out only after its instance handed the
rule on, to the instance that waited longest if there was one, and is not the holder any more. -/
theorem handedOn_before_report (hrun : Run settings log s) (rule : Identifier) :
    ((∀ id ∈ log.acceptances rule, ∃ report ∈ log.reports, report.id = id) →
      s.slots rule = none ∧
      ∀ job cancelled, s.closed = false → job.rule.id = rule →
        (s.submit job cancelled).2 = .started s.instances.length) ∧
    (∀ id s' reply, id ∈ log.acceptances rule → s.move? (.publish id) = some (s', reply) →
      HandedOn settings log rule id ∧
      ∀ holder, TakesTurns log s rule holder → holder ≠ some id) := by
  refine ⟨fun hreports => ?_, fun id s' reply hid hmove => ?_⟩
  · have hfree := slots_eq_none_of_reports hrun hreports
    exact ⟨hfree, fun job cancelled hopen hrule => submit_of_free hopen (hrule ▸ hfree)⟩
  · obtain ⟨i, report, next, hi, hphase⟩ : ∃ i report next, s.instance? id = some i ∧
        i.phase = .reporting report next := by
      cases step_of_move hmove with
      | mark _ hnone => cases hnone
      | callUp hi hphase | retire hi hphase => exact ⟨_, _, _, hi, hphase⟩
    have hdeparted := mem_departures_of_reporting hrun hid hi hphase
    exact ⟨handedOn_of_mem_departures hrun hdeparted, fun _ hturns => hturns.holder_ne hdeparted⟩

/-- Of two instances of an exclusive rule the first one handed the rule on before it reports, and
when the second one has reported too, a third one starts. -/
theorem handedOn_before_two_reports :
    (∃ log s s' reply, Run {} log s ∧ s.move? (.publish 0) = some (s', reply) ∧
      HandedOn {} log default 0 ∧ ∀ holder, TakesTurns log s default holder → holder ≠ some 0) ∧
    ∃ log s, Run {} log s ∧ log.acceptances default = [0, 1] ∧
      (s.submit (.vacant true) false).2 = .started 2 := by
  constructor
  · obtain ⟨log, s, s', reply, hplay, hmove, hid⟩ : ∃ log s s' reply,
        ({} : Scheduler).play? [] [.submit (.vacant true) false, .submit (.vacant true) false,
          .start 0, .proceed 0, .release 0] = some (log, s) ∧
        s.move? (.publish 0) = some (s', reply) ∧ log.acceptances default = [0, 1] :=
      ⟨_, _, _, _, rfl, rfl, rfl⟩
    have hrun : Run {} log s := run_of_play? .nil hplay
    exact ⟨log, s, s', reply, hrun, hmove,
      (handedOn_before_report hrun default).2 0 s' reply (by simp [hid]) hmove⟩
  · obtain ⟨log, s, hplay, haccepted, hreports, hopen, hlength⟩ : ∃ log s,
        ({} : Scheduler).play? [] [.submit (.vacant true) false, .submit (.vacant true) false,
          .start 0, .proceed 0, .release 0, .publish 0, .start 1, .proceed 1, .release 1,
          .publish 1] = some (log, s) ∧
        log.acceptances default = [0, 1] ∧ log.reports.map (·.id) = [0, 1] ∧ s.closed = false ∧
        s.instances.length = 2 :=
      ⟨_, _, rfl, rfl, rfl, rfl, rfl⟩
    have hrun : Run {} log s := run_of_play? .nil hplay
    obtain ⟨-, hstarted⟩ := (handedOn_before_report hrun default).1 fun id hid => by
      rwa [haccepted, ← hreports, List.mem_map] at hid
    exact ⟨log, s, hrun, haccepted, hlength ▸ hstarted (.vacant true) false hopen rfl⟩

end Reflex.Scheduler
