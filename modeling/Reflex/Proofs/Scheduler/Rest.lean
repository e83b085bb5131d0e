import Reflex.Proofs.Scheduler.Passage
import Mathlib.Algebra.Order.BigOperators.Group.List
import Mathlib.Algebra.Order.Ring.Nat
import Mathlib.Data.List.Induction

/-!
# Coming to Rest

Without further requests the instances come to rest: every move of an instance uses up some of
its work, and as long as an instance has work in progress a move is possible. So at rest no
instance is left waiting.

## Main definitions

- `Scheduler.Instance.work`, `Scheduler.work`: a bound for the moves that are left.

## Main statements

- `Scheduler.run_induction`: what holds at some time of a run and is kept holds from then on.
- `Scheduler.length_add_work_le`: the instances of a run make at most so many moves.
- `Scheduler.stage?_of_isQuiet`: at rest every turn is still to come or over.
-/

namespace Reflex.Scheduler

/-- A bound for the moves of an instance that goes on with the action at a position. An attempt
takes an invocation, a deadline, an answer and a pause. -/
def Instance.workFrom (i : Instance) (index : Nat) : Nat :=
  (i.job.rule.actions.length - index) * (3 * i.job.retry.maxAttempts + 3) + 3

/-- A bound for the moves that an instance can still make. -/
def Instance.work (i : Instance) : Nat :=
  match i.phase with
  | .queued | .called | .ready => i.workFrom 0 + 1
  | .proceeding outcomes => i.workFrom outcomes.length
  | .attempting outcomes attempt late =>
    i.workFrom (outcomes.length + 1) + 3 * (i.job.retry.maxAttempts - attempt) +
      if late then 1 else 2
  | .backingOff outcomes attempt =>
    i.workFrom (outcomes.length + 1) + 3 * (i.job.retry.maxAttempts - attempt)
  | .leaving _ => 2
  | .reporting .. => 1
  | .reported _ => 0

/-- A bound for the moves that the instance of a number can still make. -/
def workOf (s : Scheduler) (id : Nat) : Nat :=
  ((s.instance? id).map Instance.work).getD 0

/-- A bound for the moves that all instances can still make. -/
def work (s : Scheduler) : Nat :=
  ((List.range s.instances.length).map s.workOf).sum

/-- An instance backs off only if it may try again. -/
def Persistent (s : Scheduler) : Prop :=
  ∀ id i outcomes attempt, s.instance? id = some i → i.phase = .backingOff outcomes attempt →
    attempt < i.job.retry.maxAttempts

section Work

variable {log : Log} {s s' : Scheduler} {m : Move} {reply : Reply} {id : Nat} {i i' : Instance}

/-- The action that comes next takes more than all its attempts. -/
private theorem workFrom_succ (i : Instance) {index : Nat}
    (h : index < i.job.rule.actions.length) :
    i.workFrom index = i.workFrom (index + 1) + (3 * i.job.retry.maxAttempts + 3) := by
  have hsub : i.job.rule.actions.length - index =
      i.job.rule.actions.length - (index + 1) + 1 := by omega
  rw [Instance.workFrom, Instance.workFrom, hsub, Nat.succ_mul]
  omega

/-- Little work is left when an instance has ended. -/
private theorem work_ended_le (i : Instance) (id : Nat) (state : InstanceState) (started : Bool)
    (outcomes : List ActionOutcome) : (i.ended id state started outcomes).work ≤ 2 := by
  simp only [Instance.ended, Instance.exit, Instance.work]
  split <;> split at * <;> simp_all

/-- Whoever makes a move uses up some of its work. -/
theorem work_lt_of_acts (hacts : Acts s id i m reply i')
    (hpersistent : ∀ outcomes attempt, i.phase = .backingOff outcomes attempt →
      attempt < i.job.retry.maxAttempts) : i'.work < i.work := by
  have hended := work_ended_le i id
  have hfrom (index : Nat) : 3 ≤ i.workFrom index := by simp [Instance.workFrom]
  cases hacts with
  | forgo hphase _ =>
    refine (hended ..).trans_lt ?_
    simp only [Instance.work, hphase]
    have := hfrom 0
    omega
  | start hphase _ =>
    simp [Instance.work, hphase, Instance.workFrom]
  | @complete outcomes hphase _ =>
    refine (hended ..).trans_lt ?_
    simp only [Instance.work, hphase]
    exact hfrom outcomes.length
  | @interrupt outcomes hphase _ _ =>
    refine (hended ..).trans_lt ?_
    simp only [Instance.work, hphase]
    exact hfrom outcomes.length
  | @invoke outcomes hphase hlength _ =>
    have hnext := workFrom_succ i hlength
    simp only [Instance.work, hphase, Instance.workFrom, Bool.false_eq_true, ↓reduceIte]
      at hnext ⊢
    have : 1 ≤ i.job.retry.maxAttempts := Nat.le_max_left 1 _
    omega
  | @succeed outcomes attempt late hphase =>
    simp only [Instance.work, hphase, Instance.workFrom, List.length_append, List.length_cons,
      List.length_nil, zero_add]
    split <;> omega
  | @stopCancelled outcomes attempt late hphase =>
    refine (hended ..).trans_lt ?_
    simp only [Instance.work, hphase]
    have := hfrom (outcomes.length + 1)
    omega
  | @stopFailed outcomes attempt late result e hphase _ _ _ =>
    refine (hended ..).trans_lt ?_
    simp only [Instance.work, hphase]
    have := hfrom (outcomes.length + 1)
    omega
  | @backOff outcomes attempt late result e hphase _ _ _ _ =>
    simp only [Instance.work, hphase, Instance.workFrom]
    split <;> omega
  | expire hphase _ =>
    simp [Instance.work, hphase, Instance.workFrom]
  | @resume outcomes attempt hphase =>
    have hmore := hpersistent outcomes attempt hphase
    simp only [Instance.work, hphase, Instance.workFrom, Bool.false_eq_true, ↓reduceIte]
    omega
  | @abandon outcomes attempt hphase _ =>
    refine (hended ..).trans_lt ?_
    simp only [Instance.work, hphase]
    have := hfrom (outcomes.length + 1)
    omega
  | release hphase => simp [Instance.work, hphase]
  | publish hphase => simp [Instance.work, hphase]

/-- Whoever stands by keeps its work. -/
theorem work_eq_of_standsBy (h : StandsBy i i') : i'.work = i.work := by
  rcases h.phase with hphase | ⟨hphase, hphase'⟩ | ⟨hphase, hphase'⟩
  · simp only [Instance.work, hphase, Instance.workFrom, h.job]
  all_goals simp only [Instance.work, hphase, hphase', Instance.workFrom, h.job]

/-- Every move of an instance uses up some of the work. -/
theorem work_lt_of_step (horderly : Orderly log s) (hpersistent : Persistent s)
    (hstep : Step s m s' reply) (hagent : m.agent? = some id) : s'.work < s.work := by
  have hlength := length_of_step hstep hagent
  have hchange (j : Nat) (hj : j < s.instances.length) :
      s'.workOf j ≤ s.workOf j ∧ (j = id → s'.workOf j < s.workOf j) := by
    obtain ⟨i', hi'⟩ := Option.isSome_iff_exists.1 ((instance?_isSome s' j).2 (hlength ▸ hj))
    rcases change_of_step horderly hstep hi' with ⟨-, hnone, -⟩ | @⟨i, hi, hne, hstands⟩ |
      @⟨i, hi, hacts⟩
    · simp [hagent] at hnone
    · simp only [workOf, hi, hi', Option.map_some, Option.getD_some]
      refine ⟨(work_eq_of_standsBy hstands).le, fun hj => ?_⟩
      exact (hne (hj ▸ hagent)).elim
    · simp only [workOf, hi, hi', Option.map_some, Option.getD_some]
      have hlt := work_lt_of_acts hacts fun outcomes attempt => hpersistent j i outcomes attempt hi
      exact ⟨hlt.le, fun _ => hlt⟩
  rw [work, work, hlength]
  obtain ⟨i, hi, -⟩ := exists_agent hstep hagent
  have hid := lt_of_instance? s id hi
  exact List.sum_lt_sum _ _ (fun j hj => (hchange j (List.mem_range.1 hj)).1)
    ⟨id, List.mem_range.2 hid, (hchange id hid).2 rfl⟩

end Work

section Run

variable {settings : Settings} {log : Log} {s s' : Scheduler} {m : Move} {reply : Reply}

/-- In every run instances back off only if they may try again. -/
theorem persistent_of_run (hrun : Run settings log s) : Persistent s := by
  induction hrun with
  | nil => simp [Persistent, instance?]
  | snoc hrun hmove ih =>
    intro id i' outcomes attempt hi' hphase
    rcases change_of_run hrun hmove hi' with ⟨-, -, hnew⟩ | @⟨i, hi, -, hstands⟩ |
      @⟨i, hi, hacts⟩
    · rw [hphase] at hnew
      simp at hnew
    · rw [hstands.job]
      refine ih id i outcomes attempt hi ?_
      rcases hstands.phase with h | ⟨-, h⟩ | ⟨-, h⟩
      · rw [← h, hphase]
      all_goals simp [hphase] at h
    · cases hacts with
      | backOff _ _ _ hmore _ =>
        obtain ⟨-, rfl⟩ := Phase.backingOff.inj hphase
        exact hmore
      | _ =>
        simp only [Instance.stopped, Instance.ended, Instance.exit] at hphase
        first
        | cases hphase
        | split at hphase <;> cases hphase

/-- A run is determined by its log. -/
theorem run_unique (hrun : Run settings log s) (hrun' : Run settings log s') : s = s' := by
  induction hrun generalizing s' with
  | nil =>
    generalize hlog : ([] : Log) = log at hrun'
    cases hrun' with
    | nil => rfl
    | snoc => simp at hlog
  | @snoc log s t m reply _ hmove ih =>
    generalize hlog : log ++ [⟨m, reply⟩] = log' at hrun'
    cases hrun' with
    | nil => simp at hlog
    | @snoc log' s₁ t₁ m₁ reply₁ hrun₁ hmove₁ =>
      obtain ⟨rfl, ho⟩ := List.append_inj' hlog rfl
      obtain ⟨rfl, rfl⟩ : m = m₁ ∧ reply = reply₁ := by simpa using ho
      obtain rfl := ih hrun₁
      rw [hmove] at hmove₁
      exact (Prod.mk.inj (Option.some.inj hmove₁)).1

/-- The last move of a run leads to its end. -/
theorem exists_of_run_snoc {o : Occurrence} (hrun : Run settings (log ++ [o]) s') :
    ∃ s, Run settings log s ∧ s.move? o.move = some (s', o.reply) := by
  generalize hlog : log ++ [o] = log' at hrun
  cases hrun with
  | nil => simp at hlog
  | @snoc log' s₁ t₁ m₁ reply₁ hrun₁ hmove₁ =>
    obtain ⟨rfl, ho⟩ := List.append_inj' hlog rfl
    obtain rfl : o = ⟨m₁, reply₁⟩ := by simpa using ho
    exact ⟨s₁, hrun₁, hmove₁⟩

/-- What holds at some time of a run, and is kept by every move, holds from then on. -/
theorem run_induction {P : Log → Scheduler → Prop} (hrun : Run settings log s) (hstart : P [] s)
    (hmove : ∀ rest t m t' reply, Run settings (log ++ rest) t → P rest t →
      t.move? m = some (t', reply) → P (rest ++ [⟨m, reply⟩]) t') (rest : Log) :
    ∀ s', Run settings (log ++ rest) s' → P rest s' := by
  induction rest using List.reverseRecOn with
  | nil =>
    intro s' hrun'
    rw [List.append_nil] at hrun'
    exact run_unique hrun hrun' ▸ hstart
  | append_singleton rest o ih =>
    intro s' hrun'
    rw [← List.append_assoc] at hrun'
    obtain ⟨t, ht, hlast⟩ := exists_of_run_snoc hrun'
    exact hmove rest t o.move s' o.reply ht (ih t ht) hlast

/-- A run passes through a state after each part of its log. -/
theorem exists_of_run_append {rest : Log} (hrun : Run settings (log ++ rest) s') :
    ∃ s, Run settings log s := by
  induction rest using List.reverseRecOn generalizing s' with
  | nil => exact ⟨s', by simpa using hrun⟩
  | append_singleton rest o ih =>
    rw [← List.append_assoc] at hrun
    obtain ⟨t, ht, -⟩ := exists_of_run_snoc hrun
    exact ih ht

/-- Without further requests the instances of a run make at most so many moves. -/
theorem length_add_work_le (hrun : Run settings log s) (rest : Log) :
    ∀ s', Run settings (log ++ rest) s' → (∀ o ∈ rest, o.move.agent?.isSome) →
      rest.length + s'.work ≤ s.work := by
  refine run_induction (P := fun rest t => (∀ o ∈ rest, o.move.agent?.isSome) →
    rest.length + t.work ≤ s.work) hrun (by simp) ?_ rest
  intro rest t m t' reply ht ih hmove hagents
  have hbefore := ih fun o ho => hagents o (by simp [ho])
  obtain ⟨id, hid⟩ := Option.isSome_iff_exists.1 (hagents ⟨m, reply⟩ (by simp))
  have hlt := work_lt_of_step (orderly_of_run ht) (persistent_of_run ht) (step_of_move hmove) hid
  rw [List.length_append, List.length_singleton]
  omega

/-- An instance with work in progress can make a move. -/
theorem exists_move_of_isLive {id : Nat} {i : Instance} (hi : s.instance? id = some i)
    (hlive : i.isLive = true) : ∃ m, m.agent? = some id ∧ (s.move? m).isSome := by
  cases hphase : i.phase with
  | queued => simp [Instance.isLive, hphase] at hlive
  | called => simp [Instance.isLive, hphase] at hlive
  | reported => simp [Instance.isLive, hphase] at hlive
  | ready =>
    refine ⟨.start id, rfl, ?_⟩
    simp only [move?, start?, hi, hphase, Option.isSome_map, Option.bind_eq_bind,
      Option.bind_some]
    split <;> rfl
  | proceeding outcomes =>
    refine ⟨.proceed id, rfl, ?_⟩
    simp only [move?, proceed?, hi, hphase, Option.isSome_map, Option.bind_eq_bind,
      Option.bind_some]
    split
    · rfl
    · split <;> rfl
  | attempting outcomes attempt late =>
    refine ⟨.answer id .completed, rfl, ?_⟩
    simp [move?, answer?, hi, hphase, errorOf?]
  | backingOff outcomes attempt =>
    refine ⟨.resume id, rfl, ?_⟩
    simp [move?, resume?, hi, hphase]
  | leaving report =>
    refine ⟨.release id, rfl, ?_⟩
    simp only [move?, release?, hi, hphase, Option.isSome_map, Option.bind_eq_bind,
      Option.bind_some]
    split <;> rfl
  | reporting report next =>
    refine ⟨.publish id, rfl, ?_⟩
    simp [move?, publish?, hi, hphase]

/-- At rest no instance has work in progress. -/
theorem isLive_eq_false_of_isQuiet {id : Nat} {i : Instance} (hquiet : s.IsQuiet)
    (hi : s.instance? id = some i) : i.isLive = false := by
  by_contra hlive
  obtain ⟨m, hagent, hmove⟩ := exists_move_of_isLive hi (by simpa using hlive)
  simp [hquiet m (by simp [hagent])] at hmove

/-- Without work in progress no instance can make a move. -/
theorem isQuiet_of_isLive_eq_false (h : ∀ i ∈ s.instances, i.isLive = false) : s.IsQuiet := by
  intro m hagent
  obtain ⟨id, hid⟩ := Option.isSome_iff_exists.1 hagent
  by_contra hmove
  obtain ⟨⟨s', reply⟩, hmove⟩ := Option.ne_none_iff_exists'.1 hmove
  obtain ⟨i, hi, hlive⟩ := exists_agent (step_of_move hmove) hid
  rw [h i (List.mem_of_getElem? hi)] at hlive
  cases hlive

/-- At rest the turn of every instance is still to come or over. -/
theorem stage?_of_isQuiet (horderly : Orderly log s) (hquiet : s.IsQuiet) (id : Nat) :
    s.stage? id ≠ some .due ∧ s.stage? id ≠ some .begun := by
  cases hi : s.instance? id with
  | none => simp [stage?, standing?, hi]
  | some i =>
    have hrest := isLive_eq_false_of_isQuiet hquiet hi
    have hcalled : i.phase ≠ .called := by
      -- the instance that calls would still have to report
      intro hphase
      obtain ⟨j, hj⟩ := (horderly.paired.called id).1 (standing?_of_instance? hi hphase)
      obtain ⟨k, hk, hstanding⟩ := exists_of_standing? hj
      have hrest' := isLive_eq_false_of_isQuiet hquiet hk
      cases hphase' : k.phase <;>
        simp [Instance.isLive, hphase', Phase.standing] at hrest' hstanding
    cases hphase : i.phase <;>
      simp_all [Instance.isLive, stage?, standing?, Phase.standing, Standing.stage]

end Run

end Reflex.Scheduler
