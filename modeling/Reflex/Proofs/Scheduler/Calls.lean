import Reflex.Proofs.Scheduler.Passage
import Mathlib.Data.List.ModifyLast

/-!
# What the Executor Saw

The executor is invoked with an action at a time. This module reads the invocations of an instance
off the log of a run, independently of the outcomes that the instance collects, and says when the
invocations of an action bear an outcome out.

## Main definitions

- `Scheduler.Call`, `Scheduler.Log.calls`: the invocations of an instance, with how they ended.
- `Scheduler.Reflects`: an outcome tells what the executor saw of its action.
- `Scheduler.Done`: the outcomes of completed actions tell what the executor saw.

## Main statements

- `Scheduler.calls_of_step`: only its own moves add to the calls of an instance.
-/

namespace Reflex.Scheduler

/-! ## Calls -/

/-- An invocation of the executor. -/
structure Call where
  /-- The position of the action. -/
  index : Nat
  /-- How often the action was invoked, this time included. -/
  attempt : Nat
  /-- Whether the deadline passed before the invocation ended. -/
  late : Bool := false
  /-- How the invocation ended, if it has. -/
  result : Option InvocationResult := none

/-- The call of an instance that an effect makes. -/
def Effect.call? (id : Nat) : Effect → Option Call
  | .invoke j index attempt => if j = id then some { index, attempt } else none
  | .deliver _ => none

/-- What an occurrence adds to the calls of an instance. -/
def Occurrence.note (id : Nat) (calls : List Call) : Occurrence → List Call
  | ⟨.answer j result, _⟩ =>
    if j = id then calls.modifyLast fun c => { c with result := some result } else calls
  | ⟨.expire j, _⟩ => if j = id then calls.modifyLast fun c => { c with late := true } else calls
  | ⟨_, .effects effects⟩ => calls ++ effects.filterMap (Effect.call? id)
  | _ => calls

/-- The calls of an instance, in order. -/
def Log.calls (log : Log) (id : Nat) : List Call :=
  log.foldl (Occurrence.note id) []

theorem calls_snoc (log : Log) (o : Occurrence) (id : Nat) :
    Log.calls (log ++ [o]) id = o.note id (log.calls id) := by
  simp [Log.calls, List.foldl_append]

/-- Only its own moves add to the calls of an instance. -/
theorem calls_of_step {s s' : Scheduler} {m : Move} {reply : Reply} {id : Nat} {calls : List Call}
    (hstep : Step s m s' reply) (hagent : m.agent? ≠ some id) :
    Occurrence.note id calls ⟨m, reply⟩ = calls := by
  have hne {j : Nat} (hj : m.agent? = some j) : j ≠ id := fun h => hagent (h ▸ hj)
  cases hstep with
  | mark _ hnone hreply =>
    rcases hreply with rfl | ⟨active, rfl⟩ <;> cases m <;> first | rfl | cases hnone
  | _ =>
    first
    | rfl
    | simp [Occurrence.note, Effect.call?, hne rfl]

/-! ## Outcomes -/

/-- The call failed with an error other than that of a cancelled action. -/
def Call.Failed (type : String) (c : Call) (e : ActionError) : Prop :=
  e ≠ .cancelled ∧ ∃ result, c.result = some result ∧ errorOf? type result = some e

/-- How the last call of an action bears the outcome out. -/
inductive Verdict (settings : Settings) (job : Job) (cancelled : Bool) (outcome : ActionOutcome)
    (last : Call) : Prop
  -- The action completed.
  | completed (hstate : outcome.state = .completed) (herror : outcome.error = none)
      (hlast : last.result = some .completed)
  -- The action failed, and was not to be invoked again.
  | failed {e : ActionError} (hstate : outcome.state = .failed)
      (herror : outcome.error = some e.message) (hlast : last.Failed outcome.type e)
      (hreason : outcome.attempts = job.retry.maxAttempts ∨ cancelled = true)
  -- The action ended as cancelled; if its deadline had passed, the text says so.
  | cancelled (hstate : outcome.state = .cancelled)
      (hlast : last.result = some (.error .cancelled))
      (herror : if last.late then
        ∃ ms, timeoutMs? { settings } job outcome.index = some ms ∧
          outcome.error = some (deadlineMessage outcome.type ms)
        else outcome.error = none)
  -- The action failed, and its instance was cancelled before it was invoked again.
  | abandoned {e : ActionError} (hstate : outcome.state = .cancelled)
      (herror : outcome.error = none) (hlast : last.Failed outcome.type e)
      (hcancelled : cancelled = true) (hmore : outcome.attempts < job.retry.maxAttempts)

/-- The numbers of the calls of an action: each attempt once, in order. -/
def Numbered (index attempts : Nat) (calls : List Call) : Prop :=
  calls.map (fun c => (c.index, c.attempt)) =
    (List.range attempts).map fun attempt => (index, attempt + 1)

/-- A call comes before another one: that of an earlier action, or an earlier attempt. -/
def Call.Before (a b : Call) : Prop :=
  a.index < b.index ∨ a.index = b.index ∧ a.attempt < b.attempt

/-- The outcome of an action tells what the executor saw of it. -/
structure Reflects (settings : Settings) (job : Job) (cancelled : Bool) (outcome : ActionOutcome)
    (calls : List Call) : Prop where
  /-- The executor was invoked as often as the outcome says. -/
  numbered : Numbered outcome.index outcome.attempts calls
  /-- Exactly an action that was not invoked is skipped. -/
  skipped : outcome.state = .skipped ↔ outcome.attempts = 0
  /-- The retry policy bounds the attempts. -/
  bounded : outcome.attempts ≤ job.retry.maxAttempts
  /-- Every attempt but the last one failed. -/
  retried : ∀ c ∈ calls.dropLast, ∃ e, c.Failed outcome.type e
  /-- The last attempt decided. -/
  verdict : ∀ last ∈ calls.getLast?, Verdict settings job cancelled outcome last
  /-- An action that was not invoked has no error. -/
  silent : outcome.state = .skipped → outcome.error = none

/-- The outcomes of actions tell, one after the other, what the executor saw. -/
def Told (settings : Settings) (job : Job) (cancelled : Bool) (outcomes : List ActionOutcome)
    (calls : List Call) : Prop :=
  ∃ groups, calls = groups.flatten ∧
    List.Forall₂ (Reflects settings job cancelled) outcomes groups

/-- The outcomes are those of the first actions of the job, in order. -/
def Listed (job : Job) (outcomes : List ActionOutcome) : Prop :=
  ∀ (k : Nat) (outcome : ActionOutcome), outcomes[k]? = some outcome →
    outcome.index = k ∧ (job.rule.actions[k]?).map CompiledAction.type = some outcome.type

/-- The outcomes of completed actions, with what the executor saw of them. -/
structure Done (settings : Settings) (job : Job) (cancelled : Bool)
    (outcomes : List ActionOutcome) (calls : List Call) : Prop where
  /-- They are those of the first actions. -/
  listed : Listed job outcomes
  /-- The actions completed. -/
  completed : outcomes.map (·.state) = List.replicate outcomes.length .completed
  /-- The outcomes tell what the executor saw. -/
  told : Told settings job cancelled outcomes calls

/-- The calls of an action that failed so far and is to be invoked again. -/
structure Retried (index : Nat) (type : String) (attempts : Nat) (calls : List Call) : Prop where
  /-- The calls are numbered. -/
  numbered : Numbered index attempts calls
  /-- All of them failed. -/
  failed : ∀ c ∈ calls, ∃ e, c.Failed type e

section Outcome

variable {settings : Settings} {job : Job} {cancelled : Bool} {outcome : ActionOutcome}
  {outcomes : List ActionOutcome} {calls current : List Call} {index attempts : Nat}
  {type : String} {c : Call}

theorem numbered_nil : Numbered index 0 [] := rfl

/-- One more call takes the next number. -/
theorem Numbered.snoc (h : Numbered index attempts calls) (hindex : c.index = index)
    (hattempt : c.attempt = attempts + 1) : Numbered index (attempts + 1) (calls ++ [c]) := by
  rw [Numbered] at h ⊢
  rw [List.map_append, h, List.range_succ, List.map_append]
  simp [hindex, hattempt]

/-- The calls of an action have its position. -/
theorem Numbered.index_eq (h : Numbered index attempts calls) (hc : c ∈ calls) :
    c.index = index := by
  have hmem : (c.index, c.attempt) ∈ calls.map fun c => (c.index, c.attempt) :=
    List.mem_map_of_mem hc
  rw [h, List.mem_map] at hmem
  obtain ⟨_, _, heq⟩ := hmem
  exact (Prod.mk.inj heq).1.symm

theorem Numbered.length_eq (h : Numbered index attempts calls) : calls.length = attempts := by
  simpa using congrArg List.length h

/-- The attempts of an action come one after the other. -/
theorem Numbered.pairwise (h : Numbered index attempts calls) : calls.Pairwise Call.Before := by
  have hpairs : (calls.map fun c => (c.index, c.attempt)).Pairwise fun a b =>
      a.1 < b.1 ∨ a.1 = b.1 ∧ a.2 < b.2 := by
    rw [h, List.pairwise_map]
    exact List.pairwise_lt_range.imp fun hab => .inr ⟨rfl, Nat.succ_lt_succ hab⟩
  rwa [List.pairwise_map] at hpairs

theorem Retried.nil : Retried index type 0 [] := ⟨numbered_nil, by simp⟩

/-- One more call failed. -/
theorem Retried.snoc {e : ActionError} (h : Retried index type attempts calls)
    (hindex : c.index = index) (hattempt : c.attempt = attempts + 1) (hfailed : c.Failed type e) :
    Retried index type (attempts + 1) (calls ++ [c]) where
  numbered := h.numbered.snoc hindex hattempt
  failed := fun d hd => by
    rcases List.mem_append.1 hd with hd | hd
    · exact h.failed d hd
    · rw [List.mem_singleton.1 hd]
      exact ⟨e, hfailed⟩

/-- An action that failed so far gets its outcome from its last call. -/
theorem Retried.reflects (h : Retried outcome.index outcome.type attempts calls)
    (hindex : c.index = outcome.index) (hattempt : c.attempt = attempts + 1)
    (hattempts : outcome.attempts = attempts + 1) (hstate : outcome.state ≠ .skipped)
    (hbound : attempts + 1 ≤ job.retry.maxAttempts)
    (hverdict : Verdict settings job cancelled outcome c) :
    Reflects settings job cancelled outcome (calls ++ [c]) where
  numbered := hattempts ▸ h.numbered.snoc hindex hattempt
  skipped := by simp [hstate, hattempts]
  bounded := hattempts ▸ hbound
  retried := by simpa using h.failed
  verdict := by simpa using hverdict
  silent := fun hskipped => (hstate hskipped).elim

theorem told_nil : Told settings job cancelled [] [] := ⟨[], rfl, .nil⟩

/-- One more outcome tells what the executor saw of one more action. -/
theorem Told.snoc (h : Told settings job cancelled outcomes calls)
    (hreflects : Reflects settings job cancelled outcome current) :
    Told settings job cancelled (outcomes ++ [outcome]) (calls ++ current) := by
  obtain ⟨groups, rfl, hgroups⟩ := h
  exact ⟨groups ++ [current], by simp, List.rel_append hgroups (.cons hreflects .nil)⟩

/-- Of the actions that are skipped the executor sees nothing. -/
theorem Told.skippedFrom (h : Told settings job cancelled outcomes calls) (index : Nat)
    (actions : List CompiledAction) :
    Told settings job cancelled (outcomes ++ skippedFrom index actions) calls := by
  induction actions generalizing index outcomes with
  | nil => simpa [Scheduler.skippedFrom] using h
  | cons a rest ih =>
    have hreflects : Reflects settings job cancelled
        { index, type := a.type, state := .skipped, attempts := 0 } [] := by
      constructor <;> simp [numbered_nil]
    have hnext := ih (by simpa using h.snoc hreflects) (index + 1)
    simpa [Scheduler.skippedFrom] using hnext

/-- The calls of actions that follow each other come in order, and as often as the outcomes
say. -/
theorem pairwise_of_groups {groups : List (List Call)} {n : Nat}
    (hgroups : List.Forall₂ (fun o calls => Numbered o.index o.attempts calls) outcomes groups)
    (hindex : ∀ (k : Nat) (o : ActionOutcome), outcomes[k]? = some o → o.index = n + k) :
    groups.flatten.Pairwise Call.Before ∧ (∀ c ∈ groups.flatten, n ≤ c.index) ∧
      ∀ (k : Nat) (o : ActionOutcome), outcomes[k]? = some o →
        groups.flatten.countP (fun c => c.index = n + k) = o.attempts := by
  induction hgroups generalizing n with
  | nil => simp
  | @cons o calls outcomes groups hfirst _ ih =>
    obtain ⟨hpairwise, hleast, hcount⟩ := ih (n := n + 1) fun k p hp => by
      rw [hindex (k + 1) p (by simpa using hp)]
      omega
    have hat (c : Call) (hc : c ∈ calls) : c.index = n :=
      (hfirst.index_eq hc).trans (hindex 0 o rfl)
    rw [List.flatten_cons]
    refine ⟨List.pairwise_append.2 ⟨hfirst.pairwise, hpairwise, fun a ha b hb => .inl ?_⟩,
      fun c hc => ?_, fun k p hp => ?_⟩
    · have hle := hleast b hb
      rw [hat a ha]
      omega
    · rcases List.mem_append.1 hc with hc | hc
      · exact Nat.le_of_eq (hat c hc).symm
      · have hle := hleast c hc
        omega
    · rw [List.countP_append]
      cases k with
      | zero =>
        obtain rfl : o = p := by simpa using hp
        have hall : calls.countP (fun c => c.index = n + 0) = calls.length :=
          List.countP_eq_length.2 fun c hc => by simp [hat c hc]
        have hnone : groups.flatten.countP (fun c => c.index = n + 0) = 0 :=
          List.countP_eq_zero.2 fun c hc => by
            have hle := hleast c hc
            simp only [decide_eq_true_eq]
            omega
        rw [hall, hnone, hfirst.length_eq]
        rfl
      | succ k =>
        have hnone : calls.countP (fun c => c.index = n + (k + 1)) = 0 :=
          List.countP_eq_zero.2 fun c hc => by simp [hat c hc]
        have hrest := hcount k p (by simpa using hp)
        rw [show n + 1 + k = n + (k + 1) by omega] at hrest
        rw [hnone, hrest, Nat.zero_add]

theorem listed_nil : Listed job [] := by simp [Listed]

/-- One more outcome is that of the next action. -/
theorem Listed.snoc (h : Listed job outcomes) (hindex : outcome.index = outcomes.length)
    (htype : (job.rule.actions[outcomes.length]?).map CompiledAction.type = some outcome.type) :
    Listed job (outcomes ++ [outcome]) := by
  intro k o ho
  rcases Nat.lt_trichotomy k outcomes.length with hk | rfl | hk
  · exact h k o (by rwa [List.getElem?_append_left hk] at ho)
  · obtain rfl : outcome = o := by simpa using ho
    exact ⟨hindex, htype⟩
  · rw [List.getElem?_eq_none (by simp only [List.length_append, List.length_singleton]; omega)]
      at ho
    cases ho

/-- The outcomes of the actions that are skipped complete the list. -/
theorem Listed.withSkipped (h : Listed job outcomes) : Listed job (withSkipped job outcomes) := by
  suffices ∀ rest (outcomes : List ActionOutcome), Listed job outcomes →
      job.rule.actions.drop outcomes.length = rest →
      Listed job (outcomes ++ skippedFrom outcomes.length rest) from this _ _ h rfl
  intro rest
  induction rest with
  | nil =>
    intro outcomes h _
    simpa [skippedFrom] using h
  | cons a rest ih =>
    intro outcomes h hdrop
    have ha : job.rule.actions[outcomes.length]? = some a := by
      rw [← List.head?_drop, hdrop, List.head?_cons]
    have hnext := ih (outcomes ++ [{ index := outcomes.length, type := a.type
                                     state := .skipped, attempts := 0 }])
      (h.snoc rfl (by rw [ha]; rfl))
      (by rw [List.length_append, List.length_singleton, ← List.drop_drop, hdrop]; rfl)
    simpa [skippedFrom] using hnext

/-- The outcomes of listed actions are no more than there are actions. -/
theorem Listed.length_le (h : Listed job outcomes) :
    outcomes.length ≤ job.rule.actions.length := by
  by_contra hlength
  have hlast : job.rule.actions.length < outcomes.length := by omega
  have htype := (h job.rule.actions.length _ (List.getElem?_eq_getElem hlast)).2
  simp at htype

theorem Done.nil : Done settings job cancelled [] [] :=
  ⟨listed_nil, rfl, told_nil⟩

/-- One more action completed. -/
theorem Done.snoc (h : Done settings job cancelled outcomes calls)
    (hindex : outcome.index = outcomes.length)
    (htype : (job.rule.actions[outcomes.length]?).map CompiledAction.type = some outcome.type)
    (hstate : outcome.state = .completed)
    (hreflects : Reflects settings job cancelled outcome current) :
    Done settings job cancelled (outcomes ++ [outcome]) (calls ++ current) where
  listed := h.listed.snoc hindex htype
  completed := by
    rw [List.map_append, h.completed, List.length_append, List.length_singleton,
      List.replicate_succ']
    simp [hstate]
  told := h.told.snoc hreflects

/-- A request for cancellation that comes later does no harm. -/
theorem Verdict.mono {cancelled' : Bool} (hcancelled : cancelled = true → cancelled' = true)
    (h : Verdict settings job cancelled outcome c) :
    Verdict settings job cancelled' outcome c := by
  cases h with
  | completed hstate herror hlast => exact .completed hstate herror hlast
  | failed hstate herror hlast hreason =>
    exact .failed hstate herror hlast (hreason.imp_right hcancelled)
  | cancelled hstate hlast herror => exact .cancelled hstate hlast herror
  | abandoned hstate herror hlast hc hmore =>
    exact .abandoned hstate herror hlast (hcancelled hc) hmore

theorem Told.mono {cancelled' : Bool} (hcancelled : cancelled = true → cancelled' = true)
    (h : Told settings job cancelled outcomes calls) :
    Told settings job cancelled' outcomes calls := by
  obtain ⟨groups, hcalls, hgroups⟩ := h
  refine ⟨groups, hcalls, hgroups.imp fun o cs hr => ?_⟩
  exact ⟨hr.numbered, hr.skipped, hr.bounded, hr.retried,
    fun last hlast => (hr.verdict last hlast).mono hcancelled, hr.silent⟩

theorem Done.mono {cancelled' : Bool} (hcancelled : cancelled = true → cancelled' = true)
    (h : Done settings job cancelled outcomes calls) :
    Done settings job cancelled' outcomes calls :=
  ⟨h.listed, h.completed, h.told.mono hcancelled⟩

end Outcome

end Reflex.Scheduler
