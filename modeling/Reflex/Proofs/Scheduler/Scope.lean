import Reflex.Proofs.Scheduler.Shutdown

/-!
# Scopes of Cancellations and Deadlines

A request for the cancellation of an instance concerns the whole instance: no further action is
invoked for it. A deadline concerns one invocation: that one is asked to stop, and whatever is
invoked later is not. So an instance ends as cancelled only if a request reached it under way or an
invocation ended as cancelled, and the outcome tells of a deadline exactly if that invocation had
outlived it.

Whoever waits between two attempts is woken by a request, so runs are looked at in which no pause is
over after that.

## Main definitions

- `Scheduler.Prompt`: logs in which a request cuts every pause short.
- `Scheduler.Halted`: what a request for its cancellation does to an instance.
- `Scheduler.Confined`: whom a deadline that passes asks to stop.
- `Scheduler.Withdrawn`: a request for the cancellation of an instance reached it under way.
- `Scheduler.Attributed`: why an instance ended as cancelled, and which deadlines it tells of.

## Main statements

- `Scheduler.halted_of_run`: after a request no further action is invoked.
- `Scheduler.confined_of_run`: a deadline asks one invocation to stop.
- `Scheduler.cancelled_of_ending`: what made an instance end as cancelled.
- `Scheduler.scoped_of_run`: all of it, in every run.
-/

namespace Reflex.Scheduler

/-- The position of the action that an instance is at: it is being invoked, or it failed and is to
be invoked again. -/
def Phase.current? : Phase → Option Nat
  | .attempting outcomes _ _ | .backingOff outcomes _ => some outcomes.length
  | _ => none

/-- The report of an instance that has ended. -/
def Phase.report? : Phase → Option Report
  | .leaving report | .reporting report _ | .reported report => some report
  | _ => none

/-- The report of the instance of a number, if it has ended. -/
def ending? (s : Scheduler) (id : Nat) : Option Report :=
  (s.instance? id).bind (·.phase.report?)

/-- What identifies an invocation among those of an instance. -/
def Call.key (c : Call) : Nat × Nat :=
  (c.index, c.attempt)

/-- The invocation was ended as cancelled. -/
def Call.Cancelled (c : Call) : Prop :=
  c.result = some (.error .cancelled)

/-- Whoever waits between two attempts is woken by a request for its cancellation: no pause is over
after the request. -/
def Prompt (settings : Settings) (log : Log) : Prop :=
  ∀ before o after t, log = before ++ o :: after → Run settings before t →
    ∀ id, o.move = .resume id → t.isCancelled id = false

/-- What becomes of an instance whose cancellation was requested by some time of a run. -/
structure Halted (before log : Log) (t s : Scheduler) (id : Nat) : Prop where
  /-- No action is invoked for it any more. -/
  calls : (log.calls id).map Call.key = (before.calls id).map Call.key
  /-- The action that it is at is the last one that is invoked. -/
  current : ∀ i index, t.instance? id = some i → i.phase.current? = some index →
    (∃ c ∈ log.calls id, c.index = index) ∧ ∀ c ∈ log.calls id, c.index ≤ index
  /-- The actions that were not invoked by then are skipped. -/
  skipped : ∀ report, s.ending? id = some report → ∀ outcome ∈ report.outcomes,
    (∀ c ∈ before.calls id, c.index ≠ outcome.index) → outcome.state = .skipped
  /-- It does not complete, unless its last action was invoked by then. -/
  ended : ∀ report, s.ending? id = some report → ∀ last ∈ report.outcomes.getLast?,
    (∀ c ∈ before.calls id, c.index ≠ last.index) →
      report.state = .cancelled ∨ report.state = .failed
  /-- At rest it has ended. -/
  reported : s.IsQuiet → ∃ report ∈ log.reports, report.id = id

/-- Whom a deadline that passes asks to stop. -/
structure Confined (log : Log) (s : Scheduler) : Prop where
  /-- Asked to stop are the actions of cancelled instances, and those that are being invoked and
  have outlived their deadlines in this invocation. -/
  asked : ∀ id, s.isAskedToStop id = true ↔ s.isCancelled id = true ∨
    ∃ c ∈ (log.calls id).getLast?, c.late = true ∧ c.result = none
  /-- An invocation that begins is asked to stop only if its instance is cancelled. -/
  fresh : ∀ m s' effects id index attempt, s.move? m = some (s', .effects effects) →
    .invoke id index attempt ∈ effects → s'.isAskedToStop id = s.isCancelled id
  /-- A deadline that passes asks one invocation to stop, and cancels nobody. -/
  expired : ∀ id s' reply, s.move? (.expire id) = some (s', reply) →
    s'.isAskedToStop id = true ∧ (∀ j, s'.isCancelled j = s.isCancelled j) ∧
      ∀ j, j ≠ id → s'.isAskedToStop j = s.isAskedToStop j

/-- A request for the cancellation of an instance reached it under way. -/
def Withdrawn (settings : Settings) (log : Log) (id : Nat) : Prop :=
  ∃ before rest t, log = before ++ rest ∧ Run settings before t ∧ t.isUnderWay id = true ∧
    t.isCancelled id = true

/-- Why an instance ended as cancelled, and of which deadlines its report tells. -/
structure Attributed (settings : Settings) (log : Log) (id : Nat) (job : Job) (report : Report) :
    Prop where
  /-- A request for its cancellation reached it under way, or one of its invocations ended as
  cancelled. -/
  cause : report.state = .cancelled →
    Withdrawn settings log id ∨ ∃ c ∈ log.calls id, c.Cancelled
  /-- The outcome of an action that ended as cancelled tells of its deadline exactly if the
  invocation that ended as cancelled had outlived it, and of nothing else. -/
  deadline : ∀ outcome ∈ report.outcomes, outcome.state = .cancelled →
    ((∃ ms, timeoutMs? { settings } job outcome.index = some ms ∧
        outcome.error = some (deadlineMessage outcome.type ms)) ↔
      ∃ c ∈ log.calls id, c.index = outcome.index ∧ c.Cancelled ∧ c.late = true) ∧
    (outcome.error ≠ none →
      ∃ c ∈ log.calls id, c.index = outcome.index ∧ c.Cancelled ∧ c.late = true)

/-! ## Outcomes and their calls -/

section Outcome

variable {settings : Settings} {job : Job} {cancelled : Bool} {outcome : ActionOutcome}
  {outcomes : List ActionOutcome} {calls group : List Call} {type : String} {c : Call}

/-- The calls of an outcome are those at its position. -/
theorem Told.exists_group (h : Told settings job cancelled outcomes calls)
    (hlisted : Listed job outcomes) (houtcome : outcome ∈ outcomes) :
    ∃ group, Reflects settings job cancelled outcome group ∧
      ∀ c, c ∈ group ↔ c ∈ calls ∧ c.index = outcome.index := by
  obtain ⟨groups, rfl, hgroups⟩ := h
  obtain ⟨k, hk, rfl⟩ := List.getElem_of_mem houtcome
  have hlength := hgroups.length_eq
  have hindex (j : Nat) (hj : j < outcomes.length) : outcomes[j].index = j :=
    (hlisted j _ (List.getElem?_eq_getElem hj)).1
  have hkgroups : k < groups.length := by omega
  refine ⟨groups[k], hgroups.get hk hkgroups, fun c => ⟨fun hc => ⟨?_, ?_⟩, fun ⟨hc, hsame⟩ => ?_⟩⟩
  · exact List.mem_flatten.2 ⟨_, List.getElem_mem hkgroups, hc⟩
  · exact (hgroups.get hk hkgroups).numbered.index_eq hc
  · obtain ⟨other, hother, hc⟩ := List.mem_flatten.1 hc
    obtain ⟨j, hj, rfl⟩ := List.getElem_of_mem hother
    have hjoutcomes : j < outcomes.length := by omega
    have hposition := (hgroups.get hjoutcomes hj).numbered.index_eq hc
    obtain rfl : j = k := by
      rw [← hindex j hjoutcomes, ← hindex k hk]
      exact hposition.symm.trans hsame
    exact hc

/-- Every call is that of an outcome. -/
theorem Told.exists_outcome (h : Told settings job cancelled outcomes calls) (hc : c ∈ calls) :
    ∃ outcome ∈ outcomes, ∃ group, Reflects settings job cancelled outcome group ∧ c ∈ group := by
  obtain ⟨groups, rfl, hgroups⟩ := h
  obtain ⟨group, hgroup, hc⟩ := List.mem_flatten.1 hc
  obtain ⟨j, hj, rfl⟩ := List.getElem_of_mem hgroup
  have hjoutcomes : j < outcomes.length := by
    have hlength := hgroups.length_eq
    omega
  exact ⟨outcomes[j], List.getElem_mem hjoutcomes, _, hgroups.get hjoutcomes hj, hc⟩

/-- A call failed, or it is the last one of its action. -/
theorem Reflects.failed_or_last (h : Reflects settings job cancelled outcome group)
    (hc : c ∈ group) : (∃ e, c.Failed outcome.type e) ∨ group.getLast? = some c := by
  have hne : group ≠ [] := List.ne_nil_of_mem hc
  rw [← List.dropLast_concat_getLast hne, List.mem_append, List.mem_singleton] at hc
  rcases hc with hc | rfl
  · exact .inl (h.retried c hc)
  · exact .inr (List.getLast?_eq_getLast_of_ne_nil hne)

/-- A call that failed was not ended as cancelled. -/
theorem Call.Failed.not_cancelled {e : ActionError} (h : c.Failed type e) : ¬ c.Cancelled := by
  obtain ⟨hne, result, hresult, herror⟩ := h
  intro hcancelled
  obtain rfl := Option.some.inj (hresult.symm.trans hcancelled)
  exact hne (Option.some.inj herror).symm

theorem Call.Failed.result_ne_none {e : ActionError} (h : c.Failed type e) : c.result ≠ none := by
  obtain ⟨-, result, hresult, -⟩ := h
  simp [hresult]

/-- The calls of an action that has its outcome are over. -/
theorem Reflects.result_ne_none (h : Reflects settings job cancelled outcome group)
    (hc : c ∈ group) : c.result ≠ none := by
  rcases h.failed_or_last hc with ⟨e, hfailed⟩ | hlast
  · exact hfailed.result_ne_none
  · cases h.verdict c hlast with
    | completed _ _ hresult | cancelled _ hresult _ => simp [hresult]
    | failed _ _ hfailed _ | abandoned _ _ hfailed _ _ => exact hfailed.result_ne_none

theorem Told.result_ne_none (h : Told settings job cancelled outcomes calls) (hc : c ∈ calls) :
    c.result ≠ none := by
  obtain ⟨outcome, -, group, hreflects, hc⟩ := h.exists_outcome hc
  exact hreflects.result_ne_none hc

/-- The calls of completed actions are at their positions. -/
theorem Done.index_lt (h : Done settings job cancelled outcomes calls) (hc : c ∈ calls) :
    c.index < outcomes.length := by
  obtain ⟨outcome, houtcome, group, hreflects, hc⟩ := h.told.exists_outcome hc
  obtain ⟨k, hk, rfl⟩ := List.getElem_of_mem houtcome
  rw [hreflects.numbered.index_eq hc, (h.listed k _ (List.getElem?_eq_getElem hk)).1]
  exact hk

/-- After the calls of the completed actions come those of the next one, and no others. -/
theorem Done.last_index {failed : List Call} {last : Call} {attempts : Nat}
    (h : Done settings job cancelled outcomes calls)
    (hretried : Retried outcomes.length type attempts failed)
    (hindex : last.index = outcomes.length) :
    (∃ c ∈ calls ++ (failed ++ [last]), c.index = outcomes.length) ∧
      ∀ c ∈ calls ++ (failed ++ [last]), c.index ≤ outcomes.length := by
  refine ⟨⟨last, by simp, hindex⟩, fun c hc => ?_⟩
  simp only [List.mem_append, List.mem_singleton] at hc
  rcases hc with hc | hc | rfl
  · exact Nat.le_of_lt (h.index_lt hc)
  · exact Nat.le_of_eq (hretried.numbered.index_eq hc)
  · exact Nat.le_of_eq hindex

/-- An action without calls was skipped. -/
theorem Faithful.skipped {id : Nat} {report : Report}
    (h : Faithful settings id job cancelled calls report) (houtcome : outcome ∈ report.outcomes)
    (hnone : ∀ c ∈ calls, c.index ≠ outcome.index) : outcome.state = .skipped := by
  obtain ⟨group, hreflects, hgroup⟩ := h.told.exists_group h.listed houtcome
  have hempty : group = [] := by
    refine List.eq_nil_iff_forall_not_mem.2 fun c hc => ?_
    obtain ⟨hcalls, hindex⟩ := (hgroup c).1 hc
    exact hnone c hcalls hindex
  rw [hreflects.skipped, ← hreflects.numbered.length_eq, hempty]
  rfl

/-- An outcome that ended as cancelled tells of the deadline of the invocation that decided it. -/
theorem Reflects.deadline (h : Reflects settings job cancelled outcome group)
    (hstate : outcome.state = .cancelled) :
    (∃ ms, timeoutMs? { settings } job outcome.index = some ms ∧
      outcome.error = some (deadlineMessage outcome.type ms)) ∧
      (∃ c ∈ group, c.Cancelled ∧ c.late = true) ∨
    outcome.error = none ∧ ¬ ∃ c ∈ group, c.Cancelled ∧ c.late = true := by
  have hne : group ≠ [] := by
    rintro rfl
    have hattempts : outcome.attempts = 0 := h.numbered.length_eq.symm
    rw [h.skipped.2 hattempts] at hstate
    cases hstate
  have hlast := List.getLast?_eq_getLast_of_ne_nil hne
  have hdecides (c : Call) (hc : c ∈ group) (hcancelled : c.Cancelled) : c = group.getLast hne := by
    rcases h.failed_or_last hc with ⟨e, hfailed⟩ | hc
    · exact (hfailed.not_cancelled hcancelled).elim
    · exact Option.some.inj (hc.symm.trans hlast)
  cases h.verdict _ hlast with
  | completed hother | failed hother =>
    rw [hother] at hstate
    cases hstate
  | cancelled _ hresult herror =>
    by_cases hlate : (group.getLast hne).late = true
    · rw [if_pos hlate] at herror
      exact .inl ⟨herror, _, List.getLast_mem hne, hresult, hlate⟩
    · rw [if_neg hlate] at herror
      refine .inr ⟨herror, ?_⟩
      rintro ⟨c, hc, hcancelled, hclate⟩
      exact hlate (hdecides c hc hcancelled ▸ hclate)
  | abandoned _ herror hfailed =>
    refine .inr ⟨herror, ?_⟩
    rintro ⟨c, hc, hcancelled, -⟩
    exact hfailed.not_cancelled (hdecides c hc hcancelled ▸ hcancelled)

end Outcome

/-! ## After a request -/

section Request

variable {settings : Settings} {log before rest : Log} {s s' t : Scheduler} {m : Move}
  {reply : Reply} {id index : Nat} {i i' : Instance} {calls calls' : List Call} {c : Call}
  {report : Report}

/-- What happens to the last call does not change which call it is. -/
theorem map_key_modifyLast {f : Call → Call} (hf : ∀ c, (f c).key = c.key) (calls : List Call) :
    (calls.modifyLast f).map Call.key = calls.map Call.key := by
  induction calls using List.reverseRecOn with
  | nil => rfl
  | append_singleton calls c => simp [List.modifyLast_concat, hf]

/-- Of the same calls the same actions are invoked. -/
theorem exists_mem_of_map_key (h : calls.map Call.key = calls'.map Call.key) (hc : c ∈ calls) :
    ∃ d ∈ calls', d.index = c.index := by
  have hkey : c.key ∈ calls'.map Call.key := h ▸ List.mem_map_of_mem hc
  obtain ⟨d, hd, heq⟩ := List.mem_map.1 hkey
  exact ⟨d, hd, (Prod.mk.inj heq).1⟩

/-- An instance that is cancelled invokes nothing, unless a pause of it is over. -/
theorem Acts.map_key (hacts : Acts s id i m reply i') (hcancelled : i.cancelled = true)
    (hresume : m ≠ .resume id) (calls : List Call) :
    (Occurrence.note id calls ⟨m, reply⟩).map Call.key = calls.map Call.key := by
  cases hacts with
  | invoke _ _ hopen => simp [hcancelled] at hopen
  | resume => exact (hresume rfl).elim
  | succeed | stopCancelled | stopFailed | backOff | expire =>
    simp only [Occurrence.note, if_pos]
    exact map_key_modifyLast (by intro c; rfl) calls
  | _ => simp [Occurrence.note, Effect.call?]

/-- No move invokes an action of an instance that is cancelled, unless a pause of it is over. -/
theorem map_key_of_move (hrun : Run settings log s) (hmove : s.move? m = some (s', reply))
    (hcancelled : s.isCancelled id = true) (hresume : m ≠ .resume id) (calls : List Call) :
    (Occurrence.note id calls ⟨m, reply⟩).map Call.key = calls.map Call.key := by
  by_cases hagent : m.agent? = some id
  · obtain ⟨i, hi, hcancelled⟩ := isCancelled_eq_true.1 hcancelled
    obtain ⟨i', -, ⟨hother, -⟩ | hacts⟩ := exists_change_of_move hrun hmove hi
    · exact (hother hagent).elim
    · exact hacts.map_key hcancelled hresume calls
  · rw [calls_of_step (step_of_move hmove) hagent]

theorem Prompt.of_append (h : Prompt settings (log ++ rest)) : Prompt settings log :=
  fun before o after t hlog => h before o (after ++ rest) t (by simp [hlog])

theorem prompt_nil : Prompt settings [] := by simp [Prompt]

/-- A log stays prompt when the pause of an instance is over that is not cancelled. -/
theorem Prompt.snoc {o : Occurrence} (h : Prompt settings log)
    (hopen : ∀ t, Run settings log t → ∀ id, o.move = .resume id → t.isCancelled id = false) :
    Prompt settings (log ++ [o]) := by
  intro before p after t hlog hbefore id hp
  rcases List.append_eq_append_iff.1 hlog with ⟨later, rfl, hlater⟩ | ⟨earlier, rfl, hearlier⟩
  · rcases List.append_eq_singleton_iff.1 hlater.symm with ⟨rfl, hsame⟩ | ⟨-, hnone⟩
    · obtain ⟨rfl, -⟩ := List.cons.inj hsame
      rw [List.append_nil] at hbefore
      exact hopen t hbefore id hp
    · cases hnone
  · rcases List.cons_eq_append_iff.1 hearlier with ⟨rfl, hsame⟩ | ⟨earlier, rfl, -⟩
    · obtain ⟨rfl, -⟩ := List.cons.inj hsame
      exact hopen t (by rwa [List.append_nil]) id hp
    · exact h before p earlier t rfl hbefore id hp

/-- A log stays prompt as long as no pause is over. -/
theorem Prompt.append (h : Prompt settings log) (hrest : ∀ o ∈ rest, ∀ id, o.move ≠ .resume id) :
    Prompt settings (log ++ rest) := by
  induction rest using List.reverseRecOn with
  | nil => rwa [List.append_nil]
  | append_singleton rest o ih =>
    rw [← List.append_assoc]
    refine (ih fun p hp => hrest p (by simp [hp])).snoc fun t _ id ho => ?_
    exact (hrest o (by simp) id ho).elim

/-- Once an instance is cancelled, it stays so, and nothing is invoked for it any more. -/
theorem map_key_of_run (hbefore : Run settings before t) (hcancelled : t.isCancelled id = true)
    (hrun : Run settings (before ++ rest) s) (hprompt : Prompt settings (before ++ rest)) :
    s.isCancelled id = true ∧
      (Log.calls (before ++ rest) id).map Call.key = (before.calls id).map Call.key := by
  refine run_induction (P := fun rest s => Prompt settings (before ++ rest) →
    s.isCancelled id = true ∧
      (Log.calls (before ++ rest) id).map Call.key = (before.calls id).map Call.key)
    hbefore ?_ ?_ rest s hrun hprompt
  · intro _
    rw [List.append_nil]
    exact ⟨hcancelled, rfl⟩
  · intro rest u m u' reply hrun ih hmove hprompt
    rw [← List.append_assoc] at hprompt ⊢
    obtain ⟨hcancelled, hkeys⟩ := ih hprompt.of_append
    have hresume : m ≠ .resume id := by
      intro hm
      have hopen := hprompt _ ⟨m, reply⟩ [] u rfl hrun id hm
      rw [hcancelled] at hopen
      cases hopen
    exact ⟨isCancelled_of_move hrun hmove hcancelled, by
      rw [calls_snoc, map_key_of_move hrun hmove hcancelled hresume, hkeys]⟩

/-- The action that an instance is at is the last one that was invoked. -/
theorem Account.current (h : Account settings id i calls)
    (hcurrent : i.phase.current? = some index) :
    (∃ c ∈ calls, c.index = index) ∧ ∀ c ∈ calls, c.index ≤ index := by
  unfold Account at h
  cases hphase : i.phase with
  | attempting outcomes attempt late =>
    rw [hphase] at h hcurrent
    obtain rfl := Option.some.inj hcurrent
    obtain ⟨before, failed, rfl, hdone, -, tries, -, -, hretried, -⟩ := h
    exact hdone.last_index hretried rfl
  | backingOff outcomes attempt =>
    rw [hphase] at h hcurrent
    obtain rfl := Option.some.inj hcurrent
    obtain ⟨before, failed, last, rfl, hdone, -, tries, e, -, -, hretried, hindex, -⟩ := h
    exact hdone.last_index hretried hindex
  | _ => simp [hphase, Phase.current?] at hcurrent

/-- The report of an instance that has ended tells what the executor saw. -/
theorem faithful_of_ending (hrun : Run settings log s) (hending : s.ending? id = some report) :
    ∃ i, s.instance? id = some i ∧
      Faithful settings id i.job i.cancelled (log.calls id) report := by
  obtain ⟨i, hi, hreport⟩ := Option.bind_eq_some_iff.1 hending
  have haccount := (account_of_run hrun id).2 i hi
  refine ⟨i, hi, ?_⟩
  unfold Account at haccount
  cases hphase : i.phase with
  | leaving _ | reporting _ _ | reported _ =>
    rw [hphase] at hreport haccount
    obtain rfl := Option.some.inj hreport
    exact haccount
  | _ => simp [hphase, Phase.report?] at hreport

/-- An instance whose last action was skipped did not complete. -/
theorem Course.not_completed {cancelled : Bool} {states : List ActionState} {state : InstanceState}
    (h : Course cancelled states state) (hlast : states.getLast? = some .skipped) :
    state = .cancelled ∨ state = .failed := by
  cases h with
  | completed k => cases List.eq_of_mem_replicate (List.mem_of_getLast? hlast)
  | failed => exact .inr rfl
  | cancelled | interrupted => exact .inl rfl

/-- After a request for the cancellation of an instance nothing is invoked for it: the action that
it is at is the last one. -/
theorem halted_of_run (hbefore : Run settings before t) (hcancelled : t.isCancelled id = true)
    (hrun : Run settings (before ++ rest) s) (hprompt : Prompt settings (before ++ rest)) :
    Halted before (before ++ rest) t s id := by
  obtain ⟨hcancelled', hkeys⟩ := map_key_of_run hbefore hcancelled hrun hprompt
  have hskipped (report : Report) (hending : s.ending? id = some report)
      (outcome : ActionOutcome) (houtcome : outcome ∈ report.outcomes)
      (hnone : ∀ c ∈ before.calls id, c.index ≠ outcome.index) : outcome.state = .skipped := by
    obtain ⟨i, -, hfaithful⟩ := faithful_of_ending hrun hending
    refine hfaithful.skipped houtcome fun c hc hindex => ?_
    obtain ⟨d, hd, hsame⟩ := exists_mem_of_map_key hkeys hc
    exact hnone d hd (hsame.trans hindex)
  refine {
    calls := hkeys
    current := fun i index hi hcurrent => ?_
    skipped := hskipped
    ended := fun report hending last hlast hnone => ?_
    reported := fun hquiet => ?_ }
  · obtain ⟨⟨c, hc, rfl⟩, hmax⟩ := ((account_of_run hbefore id).2 i hi).current hcurrent
    refine ⟨exists_mem_of_map_key hkeys.symm hc, fun d hd => ?_⟩
    obtain ⟨e, he, hsame⟩ := exists_mem_of_map_key hkeys hd
    exact hsame ▸ hmax e he
  · obtain ⟨i, -, hfaithful⟩ := faithful_of_ending hrun hending
    refine hfaithful.course.not_completed ?_
    rw [List.getLast?_map, hlast, Option.map_some,
      hskipped report hending last (List.mem_of_getLast? hlast) hnone]
  · obtain ⟨i, hi, -⟩ := isCancelled_eq_true.1 hcancelled'
    exact exists_report_of_isQuiet hrun hquiet hi

end Request

/-! ## After a deadline -/

section Deadline

variable {settings : Settings} {log : Log} {s s' : Scheduler} {m : Move} {reply : Reply} {id : Nat}
  {i : Instance} {calls : List Call}

/-- Whether the instance invokes an action that has outlived its deadline. -/
def Phase.isLate : Phase → Bool
  | .attempting _ _ late => late
  | _ => false

theorem isAskedToStop_eq (s : Scheduler) (id : Nat) :
    s.isAskedToStop id = (s.instance? id).any fun i => i.cancelled || i.phase.isLate := by
  rw [isAskedToStop]
  cases s.instance? id with
  | none => rfl
  | some i => cases hphase : i.phase <;> simp [Phase.isLate, hphase]

/-- What an instance invokes is its last call, which is not over; whoever invokes nothing has no
such call. -/
theorem Account.isLate_iff (h : Account settings id i calls) :
    i.phase.isLate = true ↔ ∃ c ∈ calls.getLast?, c.late = true ∧ c.result = none := by
  have hover (hcalls : ∀ c ∈ calls, c.result ≠ none) :
      ¬ ∃ c ∈ calls.getLast?, c.late = true ∧ c.result = none := by
    rintro ⟨c, hc, -, hresult⟩
    exact hcalls c (List.mem_of_getLast? hc) hresult
  unfold Account at h
  cases hphase : i.phase with
  | queued | called | ready =>
    rw [hphase] at h
    simp [Phase.isLate, h]
  | proceeding outcomes =>
    rw [hphase] at h
    simpa [Phase.isLate] using hover fun c hc => h.told.result_ne_none hc
  | attempting outcomes attempt late =>
    rw [hphase] at h
    obtain ⟨before, failed, rfl, -⟩ := h
    simp [Phase.isLate, ← List.append_assoc]
  | backingOff outcomes attempt =>
    rw [hphase] at h
    obtain ⟨before, failed, last, rfl, hdone, -, tries, e, -, -, hretried, -, -, hfailed⟩ := h
    refine iff_of_false (by simp [Phase.isLate]) (hover fun c hc => ?_)
    simp only [List.mem_append, List.mem_singleton] at hc
    rcases hc with hc | hc | rfl
    · exact hdone.told.result_ne_none hc
    · obtain ⟨e, hfailed⟩ := hretried.failed c hc
      exact hfailed.result_ne_none
    · exact hfailed.result_ne_none
  | leaving _ | reporting _ _ | reported _ =>
    rw [hphase] at h
    simpa [Phase.isLate] using hover fun c hc => h.told.result_ne_none hc

/-- An invocation that begins has not outlived its deadline. -/
theorem isAskedToStop_eq_of_invoke {effects : List Effect} {index attempt : Nat}
    (hstep : Step s m s' (.effects effects)) (hinvoke : .invoke id index attempt ∈ effects) :
    s'.isAskedToStop id = s.isCancelled id := by
  cases hstep with
  | mark _ _ hreply => simp at hreply
  | invoke hi _ _ _ | resume hi _ =>
    obtain ⟨rfl, -, -⟩ := Effect.invoke.inj (List.mem_singleton.1 hinvoke)
    simp [isAskedToStop_eq, isCancelled, setPhase, hi, Phase.isLate]
  | _ => simp at hinvoke

/-- A deadline that passes is that of the invocation in progress. -/
theorem isAskedToStop_of_expire (hstep : Step s (.expire id) s' reply) :
    s'.isAskedToStop id = true ∧ (∀ j, s'.isCancelled j = s.isCancelled j) ∧
      ∀ j, j ≠ id → s'.isAskedToStop j = s.isAskedToStop j := by
  cases hstep with
  | mark _ hagent _ => cases hagent
  | expire hi _ _ =>
    refine ⟨by simp [isAskedToStop_eq, setPhase, hi, Phase.isLate], fun j => ?_, fun j hj => ?_⟩
    · by_cases hid : id = j
      · subst hid
        simp [isCancelled, setPhase, hi]
      · simp [isCancelled, setPhase, hid]
    · simp [isAskedToStop_eq, setPhase, hj.symm]

/-- A deadline asks one invocation to stop. -/
theorem confined_of_run (hrun : Run settings log s) : Confined log s where
  asked := fun id => by
    obtain ⟨hnone, haccount⟩ := account_of_run hrun id
    rw [isAskedToStop_eq, isCancelled]
    cases hi : s.instance? id with
    | none => simp [hnone hi]
    | some i =>
      rw [← (haccount i hi).isLate_iff]
      simp
  fresh := fun _ _ _ _ _ _ hmove => isAskedToStop_eq_of_invoke (step_of_move hmove)
  expired := fun _ _ _ hmove => isAskedToStop_of_expire (step_of_move hmove)

end Deadline

/-! ## Why an instance ended as cancelled -/

section Cause

variable {settings : Settings} {log : Log} {s s' : Scheduler} {m : Move} {reply : Reply} {id : Nat}
  {i i' : Instance} {report : Report}

theorem Withdrawn.snoc (h : Withdrawn settings log id) (o : Occurrence) :
    Withdrawn settings (log ++ [o]) id := by
  obtain ⟨before, rest, t, rfl, hbefore, hcancelled⟩ := h
  exact ⟨before, rest ++ [o], t, List.append_assoc .., hbefore, hcancelled⟩

theorem report?_ended (i : Instance) (id : Nat) (state : InstanceState) (started : Bool)
    (outcomes : List ActionOutcome) :
    (i.ended id state started outcomes).phase.report? =
      some (i.report id state started outcomes) := by
  simp only [Instance.ended, Instance.exit]
  split <;> rfl

/-- An instance ends as cancelled because it is cancelled, or because the invocation in progress
ended as cancelled; otherwise it had ended before. -/
theorem Acts.cause {calls : List Call} (hacts : Acts s id i m reply i')
    (haccount : Account settings id i calls) (hreport : i'.phase.report? = some report)
    (hstate : report.state = .cancelled) :
    (i.phase.report? = some report ∧ Occurrence.note id calls ⟨m, reply⟩ = calls) ∨
      (i.phase.isOver = false ∧ i.cancelled = true) ∨
      ∃ c ∈ Occurrence.note id calls ⟨m, reply⟩, c.Cancelled := by
  cases hacts with
  | forgo hphase hcancelled | interrupt hphase _ hcancelled | abandon hphase hcancelled =>
    exact .inr (.inl ⟨by rw [hphase]; rfl, hcancelled⟩)
  | complete | stopFailed =>
    obtain rfl := Option.some.inj ((report?_ended ..).symm.trans hreport)
    cases hstate
  | stopCancelled hphase =>
    unfold Account at haccount
    rw [hphase] at haccount
    obtain ⟨before, failed, rfl, -⟩ := haccount
    rw [note_answer, ← List.append_assoc]
    exact .inr (.inr ⟨_, List.mem_append_right _ (List.mem_singleton_self _), rfl⟩)
  | release hphase | publish hphase =>
    exact .inl ⟨by rw [hphase]; exact hreport, by simp [Occurrence.note, Effect.call?]⟩
  | _ => cases hreport

/-- An instance that ended as cancelled was cancelled under way, or one of its invocations ended as
cancelled. -/
theorem cancelled_of_ending (hrun : Run settings log s) (hending : s.ending? id = some report)
    (hstate : report.state = .cancelled) :
    Withdrawn settings log id ∨ ∃ c ∈ log.calls id, c.Cancelled := by
  induction hrun with
  | nil => cases hending
  | @snoc log s s' m reply hrun hmove ih =>
    obtain ⟨i', hi', hreport⟩ := Option.bind_eq_some_iff.1 hending
    rw [calls_snoc]
    -- what made it end earlier is still so
    have hearlier {i : Instance} (hi : s.instance? id = some i)
        (hreport : i.phase.report? = some report)
        (hcalls : Occurrence.note id (log.calls id) ⟨m, reply⟩ = log.calls id) :
        Withdrawn settings (log ++ [⟨m, reply⟩]) id ∨
          ∃ c ∈ Occurrence.note id (log.calls id) ⟨m, reply⟩, c.Cancelled := by
      rw [hcalls]
      exact (ih (Option.bind_eq_some_iff.2 ⟨i, hi, hreport⟩)).imp_left fun h => h.snoc _
    rcases change_of_run hrun hmove hi' with ⟨-, -, hphase, -⟩ | @⟨i, hi, hagent, hstands⟩ |
      @⟨i, hi, hacts⟩
    · rcases hphase with hphase | hphase <;> simp [hphase, Phase.report?] at hreport
    · have hphase : i'.phase = i.phase := by
        rcases hstands.phase with hphase | ⟨-, hphase⟩ | ⟨-, hphase⟩
        · exact hphase
        all_goals simp [hphase, Phase.report?] at hreport
      exact hearlier hi (hphase ▸ hreport) (calls_of_step (step_of_move hmove) hagent)
    · rcases hacts.cause ((account_of_run hrun id).2 i hi) hreport hstate with
        ⟨hreport, hcalls⟩ | ⟨hway, hcancelled⟩ | hcall
      · exact hearlier hi hreport hcalls
      · exact .inl ⟨log, [⟨m, reply⟩], s, rfl, hrun, isUnderWay_eq_true.2 ⟨i, hi, hway⟩,
          isCancelled_eq_true.2 ⟨i, hi, hcancelled⟩⟩
      · exact .inr hcall

/-- What an instance that ended as cancelled tells of the causes. -/
theorem attributed_of_run (hrun : Run settings log s) (hi : s.instance? id = some i)
    (hending : s.ending? id = some report) : Attributed settings log id i.job report where
  cause := cancelled_of_ending hrun hending
  deadline := fun outcome houtcome hstate => by
    obtain ⟨k, hk, hfaithful⟩ := faithful_of_ending hrun hending
    obtain rfl := Option.some.inj (hi.symm.trans hk)
    obtain ⟨group, hreflects, hgroup⟩ := hfaithful.told.exists_group hfaithful.listed houtcome
    have hmem : (∃ c ∈ log.calls id, c.index = outcome.index ∧ c.Cancelled ∧ c.late = true) ↔
        ∃ c ∈ group, c.Cancelled ∧ c.late = true := by
      simp [hgroup, and_assoc]
    rw [hmem]
    rcases hreflects.deadline hstate with ⟨herror, hlate⟩ | ⟨herror, hlate⟩
    · exact ⟨iff_of_true herror hlate, fun _ => hlate⟩
    · exact ⟨iff_of_false (by simp [herror]) hlate, fun h => (h herror).elim⟩

end Cause

/-! ## Runs -/

section Run

variable {settings : Settings} {log : Log} {s : Scheduler}

/-- A report that went out is that of an instance that has ended. -/
theorem ending?_of_mem_reports (hrun : Run settings log s) {report : Report}
    (hreport : report ∈ log.reports) : s.ending? report.id = some report := by
  obtain ⟨i, hi, hphase⟩ := reported_of_mem_reports hrun hreport
  exact Option.bind_eq_some_iff.2 ⟨i, hi, by rw [hphase]; rfl⟩

/-- Once the cancellation of an instance has been requested, no further action is invoked for it:
the one that it is at is the last one, those after it are skipped, and it does not complete unless
its last action was invoked by then. A deadline asks the one invocation to stop that has outlived
it, and cancels no instance. An instance ends as cancelled only if a request reached it under way or
one of its invocations ended as cancelled, and an outcome tells of a deadline exactly if the
invocation that ended as cancelled had outlived it. -/
theorem scoped_of_run (hrun : Run settings log s) :
    (∀ before rest t id, log = before ++ rest → Run settings before t →
      t.isCancelled id = true → Prompt settings log → Halted before log t s id) ∧
    Confined log s ∧
    (∀ id i report, s.instance? id = some i → s.ending? id = some report →
      Attributed settings log id i.job report) ∧
    ∀ report ∈ log.reports, s.ending? report.id = some report := by
  refine ⟨fun before rest t id hlog hbefore hcancelled hprompt => ?_, confined_of_run hrun,
    fun id i report => attributed_of_run hrun, fun report => ending?_of_mem_reports hrun⟩
  subst hlog
  exact halted_of_run hbefore hcancelled hrun hprompt

/-- The first action outlives its deadline and crashes, is invoked again, and completes after a
request for the cancellation of its instance. The second action is skipped. -/
theorem scoped_of_request_after_crash :
    ∃ before rest t s i report, Run {} (before ++ rest) s ∧ Run {} before t ∧
      t.isCancelled 0 = true ∧ Prompt {} (before ++ rest) ∧
      s.instance? 0 = some i ∧ report ∈ Log.reports (before ++ rest) ∧
      report.state = .cancelled ∧
      report.outcomes.map (fun o => (o.state, o.attempts)) = [(.completed, 2), (.skipped, 0)] ∧
      Halted before (before ++ rest) t s 0 ∧ Confined (before ++ rest) s ∧
      Attributed {} (before ++ rest) 0 i.job report := by
  obtain ⟨failed, rest, u, t, s, i, report, hfailed, hresumed, hended, hno, hopen, hcancelled, hi,
      hreports, hid, hstate, houtcomes⟩ :
      ∃ failed rest u t s i report,
        ({} : Scheduler).play? [] [.submit .twofold false, .start 0, .proceed 0, .expire 0,
          .answer 0 (.crashed "oops")] = some (failed, u) ∧
        u.play? failed [.resume 0, .cancel 0] =
          some (failed ++ [⟨.resume 0, .effects [.invoke 0 0 2]⟩] ++ [⟨.cancel 0, .found true⟩],
            t) ∧
        t.play? (failed ++ [⟨.resume 0, .effects [.invoke 0 0 2]⟩] ++ [⟨.cancel 0, .found true⟩])
          [.answer 0 .completed, .proceed 0, .publish 0] =
          some (failed ++ [⟨.resume 0, .effects [.invoke 0 0 2]⟩] ++ [⟨.cancel 0, .found true⟩] ++
            rest, s) ∧
        (∀ o ∈ failed ++ rest, ∀ id, o.move ≠ .resume id) ∧
        u.isCancelled 0 = false ∧ t.isCancelled 0 = true ∧ s.instance? 0 = some i ∧
        Log.reports (failed ++ [⟨.resume 0, .effects [.invoke 0 0 2]⟩] ++
          [⟨.cancel 0, .found true⟩] ++ rest) = [report] ∧ report.id = 0 ∧
        report.state = .cancelled ∧
        report.outcomes.map (fun o => (o.state, o.attempts)) = [(.completed, 2), (.skipped, 0)] :=
    ⟨_, _, _, _, _, _, _, rfl, rfl, rfl, by simp, rfl, rfl, rfl, rfl, rfl, rfl, rfl⟩
  have hu : Run {} failed u := run_of_play? .nil hfailed
  have ht := run_of_play? hu hresumed
  have hs := run_of_play? ht hended
  have hprompt : Prompt {} failed :=
    prompt_nil.append fun o ho => hno o (List.mem_append_left _ ho)
  have hprompt := hprompt.snoc (o := ⟨.resume 0, .effects [.invoke 0 0 2]⟩) fun v hv id hid => by
    obtain rfl := Move.resume.inj hid
    rw [run_unique hv hu, hopen]
  have hprompt := @Prompt.append _ _ [⟨.cancel 0, .found true⟩] hprompt (by simp)
  have hprompt := hprompt.append fun o ho => hno o (List.mem_append_right _ ho)
  obtain ⟨hhalted, hconfined, hattributed, hending⟩ := scoped_of_run hs
  have hreport := List.mem_singleton_self report
  rw [← hreports] at hreport
  exact ⟨_, rest, t, s, i, report, hs, ht, hcancelled, hprompt, hi, hreport, hstate,
    houtcomes, hhalted _ rest t 0 rfl ht hcancelled hprompt, hconfined,
    hattributed 0 i report hi (hid ▸ hending report hreport)⟩

end Run

end Reflex.Scheduler
